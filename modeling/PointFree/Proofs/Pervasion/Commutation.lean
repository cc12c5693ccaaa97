import Mathlib
import PointFree.Primitive.Scalar
import PointFree.Proofs.Pervasion
import PointFree.Proofs.Settling

/-!
Contract: a scalar rule that commutes is carried through nested values by one that does.

Sums and products of doubles are rounded from exact ones, which do not depend on the order, and so
is equality read off a comparison that turns around with its operands. The rules built on them
refuse what is no number with one kind of failure, whichever side it stands on.

The alignment of two shapes does not depend on their order, and the elements that meet are the
same. What may depend on it is which of two elements that both fail is read first, so two nested
values are compatible where no two elements that meet fail with different kinds of failure.
-/

namespace PointFree

/-! ### Scalar rules that give the same in either order -/

namespace Scalar

open Float.Model (UnpackedFloat pack)
open Outcome (Agrees)

theorem sum_comm (left right : Float) : left + right = right + left := by
  have unpacked (one other : UnpackedFloat) :
      one.add .binary64 other = other.add .binary64 one := by
    cases one <;> cases other <;> simp only [UnpackedFloat.add]
    case infinity.infinity sign sign' => cases sign <;> cases sign' <;> rfl
    case zero.zero sign sign' => cases sign <;> cases sign' <;> rfl
    case finite.finite => rw [Int.min_comm, Int.add_comm]
  exact congrArg (fun sum => Float.ofModel (pack sum)) (unpacked _ _)

theorem product_comm (left right : Float) : left * right = right * left := by
  have signs (sign sign' : UnpackedFloat.Sign) : sign * sign' = sign' * sign := by
    cases sign <;> cases sign' <;> rfl
  have unpacked (one other : UnpackedFloat) :
      one.mul .binary64 other = other.mul .binary64 one := by
    cases one <;> cases other <;>
      simp only [UnpackedFloat.mul, Nat.mul_comm, Int.add_comm, signs]
  exact congrArg (fun product => Float.ofModel (pack product)) (unpacked _ _)

/-- A comparison turns around with its operands. -/
theorem compare_swap (one other : UnpackedFloat) :
    one.compare other = (other.compare one).map Ordering.swap := by
  rcases one with ⟨_ | _⟩ | _ | ⟨_ | _⟩ | ⟨_ | _, mantissa, exponent, _⟩ <;>
    rcases other with ⟨_ | _⟩ | _ | ⟨_ | _⟩ | ⟨_ | _, mantissa', exponent', _⟩ <;>
    first
      | rfl
      | simp [UnpackedFloat.compare, Ordering.swap_then, Int.compare_swap, Nat.compare_swap]

theorem beq_comm (left right : Float) : (left == right) = (right == left) := by
  have unpacked (one other : UnpackedFloat) : one.beq other = other.beq one := by
    rw [UnpackedFloat.beq, UnpackedFloat.beq, compare_swap]
    cases other.compare one with
    | none => rfl
    | some order => cases order <;> rfl
  exact unpacked _ _

/-! ### Rules -/

theorem add_comm (left right : Value) : Agrees Eq (add left right) (add right left) := by
  have same (outcome : Outcome Value) : Agrees Eq outcome outcome := by
    cases outcome with
    | ok result => exact .ok rfl
    | error failure => exact .error rfl
  cases left <;> cases right
  case number.number first second => exact .ok (congrArg Value.number (sum_comm first second))
  case number.character distance letter => exact same (shift letter distance)
  case character.number letter distance => exact same (shift letter distance)
  all_goals exact .error rfl

theorem onNumbers_comm {function : Float → Float → Float}
    (commutes : ∀ first second, function first second = function second first)
    (left right : Value) :
    Agrees Eq (onNumbers function left right) (onNumbers function right left) := by
  cases left <;> cases right
  case number.number first second => exact .ok (congrArg Value.number (commutes first second))
  all_goals exact .error rfl

theorem sameLeaf_comm (left right : Value) : left.sameLeaf right = right.sameLeaf left := by
  cases left <;> cases right
  case number.number first second => exact beq_comm first second
  case character.character first second => exact Bool.beq_comm
  case function.function first second =>
    obtain ⟨stamp, form⟩ := first
    obtain ⟨stamp', form'⟩ := second
    exact Bool.beq_comm
  all_goals rfl

theorem equals_comm (left right : Value) : Agrees Eq (equals left right) (equals right left) := by
  rw [equals, equals, sameLeaf_comm]
  exact .ok rfl

end Scalar

/-! ### Nested values -/

variable {H : Type} {calling : Call H}

namespace Value

/-- Results that are related, and arrays whose elements are, place by place. -/
inductive Lifted (related : Value → Value → Prop) : Value → Value → Prop where
  | leaf {result result' : Value} : related result result' → Lifted related result result'
  | array (shape : Shape) {items items' : Array Value} :
      items.size = items'.size →
      (∀ (index : Nat) (inside : index < items.size) (inside' : index < items'.size),
        Lifted related items[index] items'[index]) →
      Lifted related (.array (.ofView .owned shape none (ShapedArray.stored items)))
        (.array (.ofView .owned shape none (ShapedArray.stored items')))

/-- Arrays of equal results are equal. -/
theorem Lifted.eq {result result' : Value} (lifted : Lifted Eq result result') :
    result = result' := by
  induction lifted with
  | leaf same => exact same
  | array shape size _ inductionHypothesis => rw [Array.ext size inductionHypothesis]

/-- At every level, each element that meets another one reads as one outcome from every memory,
and where both of them fail they fail with one kind of failure. The depth bounds the levels. -/
inductive Compatible (calling : Call H) : (depth : Nat) → Value → Value → Prop where
  | leaves {depth : Nat} {left right : Value} :
      left.isArray = false → right.isArray = false → Compatible calling depth left right
  | misaligned {depth : Nat} {left right : ShapedArray} :
      Shape.aligned? left.shape right.shape = none →
      Compatible calling depth (.array left) (.array right)
  | level {depth : Nat} {left right : Value} {shape : Shape} {first second : Nat → Outcome Value} :
      left.isArray = true ∨ right.isArray = true →
      Shape.aligned? left.toArray.shape right.toArray.shape = some shape →
      (∀ index < shape.size,
        (left.toArray.pick (index % left.toArray.count)).Yields calling (first index)) →
      (∀ index < shape.size,
        (right.toArray.pick (index % right.toArray.count)).Yields calling (second index)) →
      (∀ index < shape.size, ∀ failure failure', first index = .error failure →
        second index = .error failure' → failure.kind = failure'.kind) →
      (∀ index < shape.size, ∀ one other, first index = .ok one → second index = .ok other →
        Compatible calling depth one other) →
      Compatible calling (depth + 1) left right

/-- An array of values that are there at once, and so on for its elements, down to a depth. -/
inductive Plain : (depth : Nat) → Value → Prop where
  | flat {depth : Nat} {value : Value} : value.isArray = false → Plain depth value
  | array {depth : Nat} {items : ShapedArray} {content : Nat → Value} :
      (∀ index < items.count, items.element index = .value (content index)) →
      (∀ index < items.count, Plain depth (content index)) →
      Plain (depth + 1) (.array items)

theorem Plain.exists_content (calling : Call H) {depth : Nat} {value : Value}
    (plain : Plain (depth + 1) value) :
    ∃ content : Nat → Value, ∀ index < value.toArray.count,
      (value.toArray.pick index).Yields calling (.ok (content index)) ∧
        Plain depth (content index) := by
  cases plain with
  | flat flat =>
      refine ⟨fun _ => value, fun index inside => ⟨?_, .flat flat⟩⟩
      rw [toArray_of_flat flat] at inside ⊢
      rw [ShapedArray.pick_of_lt inside]
      exact fun _ => rfl
  | @array _ items content there plain =>
      refine ⟨content, fun index inside => ⟨?_, plain index inside⟩⟩
      rw [toArray] at inside ⊢
      rw [ShapedArray.pick_of_lt inside, there index inside]
      exact fun _ => rfl

theorem Plain.list {depth : Nat} {items : Array Value} (plain : ∀ item ∈ items, Plain depth item) :
    Plain (depth + 1) (.list items) := by
  have size : Shape.size [items.size] = items.size := by
    rw [Shape.size_cons, Shape.size_nil, Nat.mul_one]
  by_cases empty : items.size = 0
  · rw [Value.list, ShapedArray.list, ShapedArray.ofView, if_pos (size.trans empty)]
    exact @Plain.array _ _ (fun _ => .nil)
      (fun _ inside => absurd inside (Nat.not_lt_zero _))
      fun _ inside => absurd inside (Nat.not_lt_zero _)
  · rw [Value.list, ShapedArray.list, ShapedArray.ofView, if_neg (size.trans_ne empty)]
    refine @Plain.array _ _ (fun index => items[index]?.getD .nil) (fun index inside => ?_)
      fun index inside => ?_
    · rw [ShapedArray.element, ShapedArray.stored, Array.getElem?_eq_getElem (size ▸ inside)]
      rfl
    · rw [Array.getElem?_eq_getElem (size ▸ inside)]
      exact plain _ (Array.getElem_mem _)

/-- What is no array aligns with every array. -/
theorem arrays_of_misaligned {left right : Value}
    (misaligned : Shape.aligned? left.toArray.shape right.toArray.shape = none) :
    (∃ items, left = .array items) ∧ ∃ others, right = .array others := by
  constructor
  · refine left.flat_or_array.resolve_left fun flat => ?_
    rw [toArray_of_flat flat] at misaligned
    cases misaligned.symm.trans (Shape.nil_aligned? _)
  · refine right.flat_or_array.resolve_left fun flat => ?_
    rw [toArray_of_flat flat] at misaligned
    cases misaligned.symm.trans (Shape.aligned?_nil _)

/-- Values without an element that is pending are compatible. -/
theorem Plain.compatible {depth : Nat} {left right : Value} (plain : Plain depth left)
    (plain' : Plain depth right) : Compatible calling depth left right := by
  induction depth generalizing left right with
  | zero =>
      cases plain with
      | flat flat =>
          cases plain' with
          | flat flat' => exact .leaves flat flat'
  | succ depth inductionHypothesis =>
      cases aligned : Shape.aligned? left.toArray.shape right.toArray.shape with
      | none =>
          obtain ⟨⟨items, rfl⟩, others, rfl⟩ := arrays_of_misaligned aligned
          exact .misaligned aligned
      | some shape =>
          obtain ⟨content, reads⟩ := plain.exists_content calling
          obtain ⟨content', reads'⟩ := plain'.exists_content calling
          by_cases nested : left.isArray = true ∨ right.isArray = true
          · have filled (index : Nat) (inside : index < shape.size) :=
              ShapedArray.aligned_pos (by rw [ShapedArray.alignShapes, aligned])
                (Nat.zero_lt_of_lt inside)
            refine .level nested aligned
              (fun index inside => (reads _ (Nat.mod_lt _ (filled index inside).1)).1)
              (fun index inside => (reads' _ (Nat.mod_lt _ (filled index inside).2)).1)
              (fun _ _ _ _ fails => by cases fails) fun index inside one other isOne isOther => ?_
            cases isOne
            cases isOther
            exact inductionHypothesis (reads _ (Nat.mod_lt _ (filled index inside).1)).2
              (reads' _ (Nat.mod_lt _ (filled index inside).2)).2
          · simp only [not_or, Bool.not_eq_true] at nested
            exact .leaves nested.1 nested.2

end Value

open Likeness (Rows)

section Swapping

variable {rule : Value → Value → Outcome Value} {related : Value → Value → Prop}

theorem Outcome.Agrees.assembled {shape : Shape} {outcome outcome' : Nat → Outcome Value}
    (items : ∀ index < shape.size,
      Agrees (Value.Lifted related) (outcome index) (outcome' index)) :
    Agrees (Value.Lifted related) (PointFree.assembled shape outcome)
      (PointFree.assembled shape outcome') := by
  unfold PointFree.assembled
  cases measured : ShapedArray.measure shape with
  | error failure => exact .error rfl
  | ok size =>
      cases ShapedArray.measure_eq_ok measured
      refine (Agrees.collect items).bind fun row row' _ _ rows => .ok (.array shape rows.size_eq ?_)
      intro index inside inside'
      have related := rows.getElem? index
      rw [Array.getElem?_eq_getElem inside, Array.getElem?_eq_getElem inside'] at related
      cases related with
      | some same => exact same

/-- Two elements that meet, in either order of the two. -/
theorem Outcome.Agrees.swap {first second : Outcome Value}
    {both both' : Value → Value → Outcome Value}
    (kinds : ∀ failure failure', first = .error failure → second = .error failure' →
      failure.kind = failure'.kind)
    (results : ∀ one other, first = .ok one → second = .ok other →
      Agrees related (both one other) (both' other one)) :
    Agrees related (first.bind fun one => second.bind (both one))
      (second.bind fun other => first.bind (both' other)) := by
  cases first with
  | error failure =>
      cases second with
      | error failure' => exact .error (kinds failure failure' rfl rfl)
      | ok other => exact .error rfl
  | ok one =>
      cases second with
      | error failure' => exact .error rfl
      | ok other => exact results one other rfl rfl

/-- The walk with so many rounds. -/
def Value.zipLeavesWithin (rule : Value → Value → Outcome Value) (budget : Nat)
    (left right : Value) : Action H Value :=
  Action.rounds (fun later pair => pair.1.zipLeavesThrough rule later pair.2) budget (left, right)

theorem Value.zipLeavesWithin_of_leaves {budget : Nat} (positive : 0 < budget) {left right : Value}
    (flat : left.isArray = false) (flat' : right.isArray = false) :
    (zipLeavesWithin rule budget left right : Action H Value) =
      Action.ofOutcome (rule left right) := by
  rw [zipLeavesWithin, Action.rounds_eq_step _ _ _ positive]
  exact zipLeavesThrough_of_leaves flat flat'

theorem Value.yields_of_misaligned {budget : Nat} (positive : 0 < budget)
    {left right : ShapedArray} (misaligned : Shape.aligned? left.shape right.shape = none) :
    (zipLeavesWithin rule budget (.array left) (.array right)).Yields calling
      (refuse (.misaligned left.shape right.shape)) := by
  intro memory
  obtain ⟨view, shape, fill, element⟩ := left
  rw [zipLeavesWithin, Action.rounds_eq_step _ _ _ positive]
  change (liftM (ShapedArray.alignShapes shape right.shape) >>= _ : Action H Value)
    calling memory = _
  have refused : ShapedArray.alignShapes shape right.shape =
      refuse (.misaligned shape right.shape) := by
    rw [ShapedArray.alignShapes, show Shape.aligned? shape right.shape = none from misaligned]
  rw [refused]
  rfl

/-- A level comes to what its pairs come to with one round less. -/
theorem Value.yields_of_meeting {depth budget : Nat} (positive : depth + 1 < budget)
    {left right : Value} {shape : Shape} {first second : Nat → Outcome Value}
    {both : Nat → Value → Value → Outcome Value}
    (nested : left.isArray = true ∨ right.isArray = true)
    (aligned : Shape.aligned? left.toArray.shape right.toArray.shape = some shape)
    (firsts : ∀ index < shape.size,
      (left.toArray.pick (index % left.toArray.count)).Yields calling (first index))
    (seconds : ∀ index < shape.size,
      (right.toArray.pick (index % right.toArray.count)).Yields calling (second index))
    (pairs : ∀ index < shape.size, ∀ one other, first index = .ok one →
      second index = .ok other → ∀ budget, depth < budget →
        (zipLeavesWithin rule budget one other).Yields calling (both index one other)) :
    (zipLeavesWithin rule budget left right).Yields calling
      (assembled shape fun index =>
        (first index).bind fun one => (second index).bind (both index one)) := by
  obtain ⟨rest, rfl⟩ : ∃ rest, budget = rest + 1 := ⟨budget - 1, by omega⟩
  refine Meeting.yields nested
    ⟨aligned, firsts, seconds, fun index inside one other isOne isOther => ?_⟩
  have pair := pairs index inside one other isOne isOther
  exact ⟨pair (rest + 1) (by omega), pair rest (by omega)⟩

/-- However many rounds there are beyond the depth, the walk comes to one outcome in each order,
and the two agree. -/
theorem Value.Compatible.exists_outcomes
    (commutes : ∀ left right : Value, left.isArray = false → right.isArray = false →
      Outcome.Agrees related (rule left right) (rule right left))
    {depth : Nat} {left right : Value} (compatible : Compatible calling depth left right) :
    ∃ outcome swapped, (∀ budget, depth < budget →
        (zipLeavesWithin rule budget left right).Yields calling outcome ∧
        (zipLeavesWithin rule budget right left).Yields calling swapped) ∧
      Outcome.Agrees (Lifted related) outcome swapped := by
  induction compatible with
  | @leaves depth left right flat flat' =>
      refine ⟨rule left right, rule right left, fun budget positive => ?_,
        (commutes left right flat flat').mono .leaf⟩
      rw [zipLeavesWithin_of_leaves (by omega) flat flat',
        zipLeavesWithin_of_leaves (by omega) flat' flat]
      exact ⟨Action.yields_ofOutcome _, Action.yields_ofOutcome _⟩
  | @misaligned depth left right misaligned =>
      refine ⟨_, _, fun budget positive => ⟨yields_of_misaligned (by omega) misaligned,
        yields_of_misaligned (by omega) (Shape.aligned?_comm .. ▸ misaligned)⟩, .error rfl⟩
  | @level depth left right shape first second nested aligned firsts seconds kinds _
      inductionHypothesis =>
      have : Nonempty (Outcome Value) := ⟨.ok .nil⟩
      choose! outcome swapped outcomes agree using inductionHypothesis
      refine ⟨_, _, fun budget positive => ⟨?_, ?_⟩, Outcome.Agrees.assembled fun index inside =>
        Outcome.Agrees.swap (kinds index inside) (agree index inside)⟩
      · exact yields_of_meeting positive nested aligned firsts seconds
          fun index inside one other isOne isOther budget positive =>
            (outcomes index inside one other isOne isOther budget positive).1
      · exact yields_of_meeting positive nested.symm (Shape.aligned?_comm .. ▸ aligned) seconds firsts
          fun index inside other one isOther isOne budget positive =>
            (outcomes index inside one other isOne isOther budget positive).2

/-- A rule that commutes on values that are no arrays, up to the kind of its failures, commutes on
values that are compatible: the walk over them ends, does nothing else, and comes to the same
array of results in both orders, or fails with one kind of failure in both. So do addition,
multiplication and equality. -/
theorem Value.zipLeaves_comm
    (commutes : ∀ left right : Value, left.isArray = false → right.isArray = false →
      Outcome.Agrees related (rule left right) (rule right left))
    {depth : Nat} {left right : Value} (compatible : Compatible calling depth left right)
    (shallow : depth < callBudget) :
    (∃ outcome swapped, (left.zipLeaves rule right).Yields calling outcome ∧
      (right.zipLeaves rule left).Yields calling swapped ∧
      Outcome.Agrees (Lifted related) outcome swapped) ∧
    ∀ primitive ∈ [Primitive.add, .multiply, .equals], ∃ outcome swapped,
      (primitive.apply right (some left)).Yields calling outcome ∧
      (primitive.apply left (some right)).Yields calling swapped ∧
      Outcome.Agrees Eq outcome swapped := by
  have lifted {related : Value → Value → Prop} {rule : Value → Value → Outcome Value}
      (commutes : ∀ left right : Value, left.isArray = false → right.isArray = false →
        Outcome.Agrees related (rule left right) (rule right left)) :
      ∃ outcome swapped, (left.zipLeaves rule right).Yields calling outcome ∧
        (right.zipLeaves rule left).Yields calling swapped ∧
        Outcome.Agrees (Lifted related) outcome swapped := by
    obtain ⟨outcome, swapped, yields, agree⟩ := compatible.exists_outcomes commutes
    exact ⟨outcome, swapped, (yields callBudget shallow).1, (yields callBudget shallow).2, agree⟩
  have same {rule : Value → Value → Outcome Value}
      (commutes : ∀ left right : Value, Outcome.Agrees Eq (rule left right) (rule right left)) :
      ∃ outcome swapped, (left.zipLeaves rule right).Yields calling outcome ∧
        (right.zipLeaves rule left).Yields calling swapped ∧ Outcome.Agrees Eq outcome swapped := by
    obtain ⟨outcome, swapped, yields, yields', agree⟩ :=
      lifted fun left right _ _ => commutes left right
    exact ⟨outcome, swapped, yields, yields', agree.mono Lifted.eq⟩
  refine ⟨lifted commutes, fun primitive among => ?_⟩
  simp only [List.mem_cons, List.not_mem_nil, or_false] at among
  obtain rfl | rfl | rfl := among
  · exact same Scalar.add_comm
  · exact same (Scalar.onNumbers_comm Scalar.product_comm)
  · exact same Scalar.equals_comm

end Swapping

namespace Value

theorem zipLeaves_comm_nested :
    let calls : Call (Heap (List Routine)) := callAt callBudget
    let left := list #[.number 1.0, list #[.character 'a', .number 2.0]]
    let right := list #[list #[.number 3.0, .number 4.0], .number 5.0]
    Plain 2 left ∧ Plain 2 right ∧ 2 < callBudget ∧
    ∃ outcome swapped, (left.zipLeaves Scalar.add right).Yields calls outcome ∧
      (right.zipLeaves Scalar.add left).Yields calls swapped ∧
      Outcome.Agrees (Lifted Eq) outcome swapped := by
  intro calls left right
  have leaves (first second : Value) (flat : first.isArray = false) (flat' : second.isArray = false) :
      Plain 1 (list #[first, second]) :=
    .list (by simpa using ⟨.flat flat, .flat flat'⟩)
  have plain : Plain 2 left := .list (by simpa using ⟨.flat rfl, leaves _ _ rfl rfl⟩)
  have plain' : Plain 2 right := .list (by simpa using ⟨leaves _ _ rfl rfl, .flat rfl⟩)
  have shallow : 2 < callBudget := by decide
  exact ⟨plain, plain', shallow,
    (zipLeaves_comm (fun _ _ _ _ => Scalar.add_comm _ _) (plain.compatible plain') shallow).1⟩

namespace Clash

def plus : Function :=
  .mk 0 (.primitive .add)

/-- One element, which is to add a letter to a letter. -/
def letters : ShapedArray :=
  .ofView .zip [1] none fun index =>
    .combined plus ((ShapedArray.list #[.character 'a']).elementAt (index % 1))
      ((ShapedArray.list #[.character 'b']).elementAt (index % 1))

def two : Value :=
  list #[.number 1.0, .number 2.0]

def three : Value :=
  list #[.number 1.0, .number 2.0, .number 3.0]

/-- One element, which is to add two numbers to three. -/
def rows : ShapedArray :=
  .ofView .zip [1] none fun index =>
    .combined plus ((ShapedArray.list #[two]).elementAt (index % 1))
      ((ShapedArray.list #[three]).elementAt (index % 1))

end Clash

/-- The sum of two arrays whose elements cannot be computed: the element that is read first says how
the sum fails. -/
theorem zipLeaves_not_comm :
    (∀ left right, Outcome.Agrees Eq (Scalar.add left right) (Scalar.add right left)) ∧
    (ShapedArray.list #[.character 'a']).zip (.list #[.character 'b']) Clash.plus =
      .ok Clash.letters ∧
    (ShapedArray.list #[Clash.two]).zip (.list #[Clash.three]) Clash.plus = .ok Clash.rows ∧
    ∃ failure failure',
      (zipLeaves Scalar.add (.array Clash.letters) (.array Clash.rows)).perform Store.empty =
        (.error failure, Store.empty) ∧
      (zipLeaves Scalar.add (.array Clash.rows) (.array Clash.letters)).perform Store.empty =
        (.error failure', Store.empty) ∧
      failure.kind = .domain ∧ failure'.kind = .shape :=
  ⟨Scalar.add_comm, rfl, rfl, _, _, rfl, rfl, rfl, rfl⟩

end Value

end PointFree
