import Mathlib.Algebra.Group.Nat.Defs
import PointFree.Function.Call
import PointFree.Proofs.Views.Making

/-!
Contract: reading the elements of arrays.

An array that was made by operations on arrays refuses every index that is not below its
count. Reading an element below the count goes down the views to the elements that are
there as values; it fails only in a call of a combining function on the way, or at an index
that named a place when its gather was made and names none when it is read again.
-/

namespace PointFree

variable {H : Type} {calling : Call H}

/-- How reading an element comes to fail: a combining function fails on the way, or an
index that has named a place before names none any more. -/
inductive Element.FailsIn (calling : Call H) : Element → Memory H → Failure → Prop where
  | left {function : Function} {left right : Element} {memory : Memory H} {failure : Failure} :
      FailsIn calling left memory failure →
      FailsIn calling (.combined function left right) memory failure
  | right {function : Function} {left right : Element} {memory between : Memory H}
      {first : Value} {failure : Failure} :
      left.force calling memory = (.ok first, between) →
      FailsIn calling right between failure →
      FailsIn calling (.combined function left right) memory failure
  | function {function : Function} {left right : Element} {memory between before : Memory H}
      {first second : Value} {failure : Failure} :
      left.force calling memory = (.ok first, between) →
      right.force calling between = (.ok second, before) →
      (calling function second (some first) before).1 = .error failure →
      FailsIn calling (.combined function left right) memory failure
  | index {index : Element} {count : Nat} {parent : Nat → Element} {memory : Memory H}
      {failure : Failure} :
      FailsIn calling index memory failure →
      FailsIn calling (.selected index count parent) memory failure
  | astray {index : Element} {count : Nat} {parent : Nat → Element}
      {memory between : Memory H} {named : Value} {failure : Failure} :
      index.HasNamed calling count → index.force calling memory = (.ok named, between) →
      named.toPlace count = .error failure →
      FailsIn calling (.selected index count parent) memory failure
  | parent {index : Element} {count place : Nat} {parent : Nat → Element}
      {memory between : Memory H} {named : Value} {failure : Failure} :
      index.force calling memory = (.ok named, between) → named.toPlace count = .ok place →
      FailsIn calling (parent place) between failure →
      FailsIn calling (.selected index count parent) memory failure

/-- A sound element fails in one of these ways. -/
theorem Element.Sound.failsIn {element : Element} (sound : element.Sound calling)
    {memory after : Memory H} {failure : Failure}
    (failed : element.force calling memory = (.error failure, after)) :
    element.FailsIn calling memory failure := by
  induction sound generalizing memory with
  | value found => cases failed
  | @combined function left right _ _ leftFails rightFails =>
      rw [force] at failed
      rcases first : left.force calling memory with ⟨reason | value, between⟩
      · rw [Action.bind_of_error first] at failed
        cases failed
        exact .left (leftFails first)
      · rw [Action.bind_of_ok first] at failed
        rcases second : right.force calling between with ⟨reason | value', before⟩
        · rw [Action.bind_of_error second] at failed
          cases failed
          exact .right first (rightFails second)
        · rw [Action.bind_of_ok second] at failed
          exact .function first second (congrArg Prod.fst failed)
  | @selected index count parent _ hasNamed _ indexFails parentFails =>
      rw [force] at failed
      rcases read : index.force calling memory with ⟨reason | named, between⟩
      · rw [Action.bind_of_error read] at failed
        cases failed
        exact .index (indexFails read)
      · rw [Action.bind_of_ok read] at failed
        cases isPlace : named.toPlace count with
        | error reason =>
            rw [isPlace] at failed
            cases failed
            exact .astray hasNamed read isPlace
        | ok place =>
            rw [isPlace] at failed
            exact .parent read isPlace (parentFails place (Value.toPlace_lt isPlace) failed)

theorem Shape.size_eq_prod (shape : Shape) : shape.size = shape.prod := by
  induction shape with
  | nil => rfl
  | cons axis rest inductionHypothesis =>
      rw [Shape.size_cons, List.prod_cons, inductionHypothesis]

namespace ShapedArray

/-- An array that operations have made has as many elements as its shape says, is the empty
array if there are none, refuses every index past them, and fails at an index below only
where a combining function fails or an index of a gather is not what it was. -/
theorem IsMade.reads {array : ShapedArray} (made : array.IsMade calling) :
    array.count = array.shape.prod ∧
    (array.count = 0 → array = .nil) ∧
    (∀ index, array.count ≤ index → ∀ memory, ∃ failure,
      array.pick index calling memory = (.error failure, memory) ∧ failure.kind = .index) ∧
    ∀ index < array.count, ∀ memory failure after,
      array.pick index calling memory = (.error failure, after) →
      (array.elementAt index).FailsIn calling memory failure := by
  have sound := made.sound
  refine ⟨Shape.size_eq_prod array.shape, sound.empty, fun index outside memory => ?_,
    fun index below memory failure after failed => (sound.element index below).failsIn failed⟩
  rw [pick_of_count_le array index outside]
  exact ⟨_, rfl, rfl⟩

/-! ### An index that goes astray -/

namespace Astray

/-- `{n +↩ 1 ⋄ 7 × n > 1}`: the first call gives zero, every other one seven. -/
def routine : Routine :=
  ⟨1, 3, 64, [
    .evaluate (.updateWith (.constant (.number 1.0))
      (.constant (.function (.mk 0 (.primitive .add)))) (.slot 1 3)) none,
    .finish (.callBoth
      (.callBoth (.constant (.number 1.0)) (.constant (.function (.mk 1 (.primitive .greater))))
        (.load 1 3))
      (.constant (.function (.mk 2 (.primitive .multiply)))) (.constant (.number 7.0))) none]⟩

/-- The frame that `n ← 0` leaves, with the function that was made in it. -/
def store : Store :=
  ⟨⟨#[⟨#[none, none, none, some (.number 0.0)], none⟩], #[[⟨0, 4, 64, []⟩, routine]]⟩, 4, 0⟩

def function : Function :=
  .mk 3 (.block 0 1 0)

def numbers : ShapedArray :=
  .list #[.number 10.0, .number 20.0, .number 30.0]

/-- One index, which the function computes. -/
def indices : ShapedArray :=
  .ofView .zip [1] none fun index =>
    .combined function ((ShapedArray.list #[.number 0.0]).elementAt (index % 1))
      ((ShapedArray.list #[.number 0.0]).elementAt (index % 1))

abbrev calls : Call (Heap (List Routine)) :=
  callAt callBudget

theorem indices_made : indices.IsMade calls := by
  have zipped : (ShapedArray.list #[.number 0.0]).zip (.list #[.number 0.0]) function =
    .ok indices := rfl
  exact .zip (.list #[.number 0.0]) (.list #[.number 0.0]) zipped

end Astray

theorem IsMade.reads_indices :
    Astray.indices.IsMade Astray.calls ∧
    Astray.indices.count = Astray.indices.shape.prod ∧
    (Astray.indices.count = 0 → Astray.indices = .nil) ∧
    (∀ index, Astray.indices.count ≤ index → ∀ memory, ∃ failure,
      Astray.indices.pick index Astray.calls memory = (.error failure, memory) ∧
        failure.kind = .index) ∧
    ∀ index < Astray.indices.count, ∀ memory failure after,
      Astray.indices.pick index Astray.calls memory = (.error failure, after) →
      (Astray.indices.elementAt index).FailsIn Astray.calls memory failure :=
  ⟨Astray.indices_made, IsMade.reads Astray.indices_made⟩

/-- A gather whose index was read as zero, below the count of its parent, when it was made.
Picking its element reads the index again, as seven, and fails past the end of the parent,
though the combining function succeeds. -/
theorem IsMade.pick_astray : ∃ gathered after failure last named later,
    Astray.numbers.gather Astray.indices Astray.calls Astray.store = (.ok gathered, after) ∧
    gathered.IsMade Astray.calls ∧ 0 < gathered.count ∧
    gathered.pick 0 Astray.calls after = (.error failure, last) ∧ failure.kind = .index ∧
    Astray.indices.pick 0 Astray.calls after = (.ok named, later) := by
  rcases made : Astray.numbers.gather Astray.indices Astray.calls Astray.store with
    ⟨refused | gathered, after⟩
  · have succeeds :
        (Astray.numbers.gather Astray.indices Astray.calls Astray.store).1.isOk = true := by
      decide +kernel
    rw [made] at succeeds
    cases succeeds
  · have gives : (Astray.numbers.gather Astray.indices).Gives Astray.calls gathered :=
      ⟨_, _, made⟩
    have one : gathered.count = 1 := by
      obtain ⟨_, _, built⟩ := gives.bind
      obtain ⟨_, _, rfl⟩ := Outcome.map_eq_ok.1 built.eq_ok
      exact count_ofView ..
    have picked : (match ((do
          let gathered ← Astray.numbers.gather Astray.indices
          gathered.pick 0 : Action (Heap (List Routine)) Value) Astray.calls Astray.store).1 with
        | .ok _ => false
        | .error failure => decide (failure.kind = .index)) = true := by
      decide +kernel
    have again : ((do
          let _ ← Astray.numbers.gather Astray.indices
          Astray.indices.pick 0 : Action (Heap (List Routine)) Value)
        Astray.calls Astray.store).1.isOk = true := by
      decide +kernel
    rw [Action.bind_of_ok made] at picked again
    rcases failed : gathered.pick 0 Astray.calls after with ⟨failure | found, last⟩
    · rcases read : Astray.indices.pick 0 Astray.calls after with ⟨refused | named, later⟩
      · rw [read] at again
        cases again
      · rw [failed] at picked
        exact ⟨gathered, after, failure, last, named, later, rfl,
          .gather (.list _) Astray.indices_made gives, by omega, failed,
          of_decide_eq_true picked, read⟩
    · rw [failed] at picked
      cases picked

end ShapedArray

end PointFree
