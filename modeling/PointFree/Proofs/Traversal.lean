import PointFree.Proofs.Correspondence.Settled
import PointFree.Value.Depth
import PointFree.Value.Equality
import PointFree.Value.Pervasion

/-!
Contract: going through a value that is settled.

A traversal of nested arrays starts another round when it has to call a function to learn
what an element is. A settled value has no such element: one round goes through all of it,
and the number of rounds there are makes no difference.
-/

namespace PointFree

variable {H : Type}

/-- A step that never asks for the next round takes only one. -/
theorem Action.rounds_eq_of_step {α β : Type} {step : (α → Action H β) → α → Action H β}
    {argument : α} (alone : ∀ later later', step later argument = step later' argument)
    {budget budget' : Nat} (positive : 0 < budget) (positive' : 0 < budget') :
    Action.rounds step budget argument = Action.rounds step budget' argument := by
  rw [Action.rounds_eq_step step budget argument positive,
    Action.rounds_eq_step step budget' argument positive']
  exact alone _ _

section Depth

variable (later later' : Value → Action H Nat)

mutual

theorem Value.IsSettled.depthThrough {value : Value} :
    value.IsSettled → value.depthThrough later = value.depthThrough later'
  | .number _ => rfl
  | .character _ => rfl
  | .function _ => rfl
  | .array settled => ShapedArray.IsSettled.depthThrough settled

theorem ShapedArray.IsSettled.depthThrough {array : ShapedArray} :
    array.IsSettled → array.depthThrough later = array.depthThrough later'
  | .mk view shape fill settled => by
      rw [ShapedArray.depthThrough, ShapedArray.depthThrough,
        funext fun index => Element.IsSettled.depthThrough (settled index)]

theorem Element.IsSettled.depthThrough {element : Element} :
    element.IsSettled → element.depthThrough later = element.depthThrough later'
  | .value settled => Value.IsSettled.depthThrough settled
  | .failure _ => rfl

end

end Depth

section Leaves

variable (rule : Value → Outcome Value) (later later' : Value → Action H Value)

mutual

theorem Value.IsSettled.mapLeavesThrough {value : Value} :
    value.IsSettled → value.mapLeavesThrough rule later = value.mapLeavesThrough rule later'
  | .number _ => rfl
  | .character _ => rfl
  | .function _ => rfl
  | .array settled => ShapedArray.IsSettled.mapLeavesThrough settled

theorem ShapedArray.IsSettled.mapLeavesThrough {array : ShapedArray} :
    array.IsSettled → array.mapLeavesThrough rule later = array.mapLeavesThrough rule later'
  | .mk view shape fill settled => by
      rw [ShapedArray.mapLeavesThrough, ShapedArray.mapLeavesThrough,
        funext fun index => Element.IsSettled.mapLeavesThrough (settled index)]

theorem Element.IsSettled.mapLeavesThrough {element : Element} :
    element.IsSettled → element.mapLeavesThrough rule later = element.mapLeavesThrough rule later'
  | .value settled => Value.IsSettled.mapLeavesThrough settled
  | .failure _ => rfl

end

mutual

theorem Value.IsSettled.againstLeavesThrough {value : Value} :
    value.IsSettled →
      value.againstLeavesThrough rule later = value.againstLeavesThrough rule later'
  | .number _ => rfl
  | .character _ => rfl
  | .function _ => rfl
  | .array settled => ShapedArray.IsSettled.againstLeavesThrough settled

theorem ShapedArray.IsSettled.againstLeavesThrough {array : ShapedArray} :
    array.IsSettled →
      array.againstLeavesThrough rule later = array.againstLeavesThrough rule later'
  | .mk view shape fill settled => by
      rw [ShapedArray.againstLeavesThrough, ShapedArray.againstLeavesThrough,
        funext fun index => Element.IsSettled.againstLeavesThrough (settled index)]

theorem Element.IsSettled.againstLeavesThrough {element : Element} :
    element.IsSettled →
      element.againstLeavesThrough rule later = element.againstLeavesThrough rule later'
  | .value settled => Value.IsSettled.againstLeavesThrough settled
  | .failure _ => rfl

end

end Leaves

section Pairs

variable (rule : Value → Value → Outcome Value) (later later' : Value × Value → Action H Value)

mutual

theorem Value.IsSettled.zipLeavesThrough {value right : Value} (settledRight : right.IsSettled) :
    value.IsSettled →
      value.zipLeavesThrough rule later right = value.zipLeavesThrough rule later' right
  | .number _ => Value.IsSettled.againstLeavesThrough _ _ _ settledRight
  | .character _ => Value.IsSettled.againstLeavesThrough _ _ _ settledRight
  | .function _ => Value.IsSettled.againstLeavesThrough _ _ _ settledRight
  | .array settled => ShapedArray.IsSettled.zipLeavesThrough settledRight settled

theorem ShapedArray.IsSettled.zipLeavesThrough {array : ShapedArray} {right : Value}
    (settledRight : right.IsSettled) :
    array.IsSettled →
      array.zipLeavesThrough rule later right = array.zipLeavesThrough rule later' right
  | .mk view shape fill settled => by
      cases settledRight with
      | array settledOthers =>
          cases settledOthers with
          | mk view' shape' fill' settled' =>
              rw [ShapedArray.zipLeavesThrough, ShapedArray.zipLeavesThrough]
              refine congrArg (_ >>= ·) (funext fun aligned => congrArg _ (funext fun index => ?_))
              exact Element.IsSettled.zipLeavesThrough (settled' _) (settled _)
      | number number =>
          exact congrArg (computed shape) (funext fun index =>
            Element.IsSettled.zipLeavesThrough (.value (.number number)) (settled index))
      | character letter =>
          exact congrArg (computed shape) (funext fun index =>
            Element.IsSettled.zipLeavesThrough (.value (.character letter)) (settled index))
      | function function =>
          exact congrArg (computed shape) (funext fun index =>
            Element.IsSettled.zipLeavesThrough (.value (.function function)) (settled index))

theorem Element.IsSettled.zipLeavesThrough {element right : Element}
    (settledRight : right.IsSettled) :
    element.IsSettled →
      element.zipLeavesThrough rule later right = element.zipLeavesThrough rule later' right
  | .value settled => by
      cases settledRight with
      | value settledRight => exact Value.IsSettled.zipLeavesThrough settledRight settled
      | failure _ => rfl
  | .failure _ => rfl

end

end Pairs

section Equality

variable (later later' : Value × Value → Action H Bool)

mutual

theorem Value.IsSettled.sameThrough {value : Value} :
    value.IsSettled → ∀ right, value.sameThrough later right = value.sameThrough later' right
  | .number _, _ => rfl
  | .character _, _ => rfl
  | .function _, _ => rfl
  | .array settled, .array right => ShapedArray.IsSettled.sameThrough settled right
  | .array _, .number _ => rfl
  | .array _, .character _ => rfl
  | .array _, .function _ => rfl

theorem ShapedArray.IsSettled.sameThrough {array : ShapedArray} :
    array.IsSettled → ∀ right, array.sameThrough later right = array.sameThrough later' right
  | .mk view shape fill settled, right => by
      rw [ShapedArray.sameThrough, ShapedArray.sameThrough,
        funext fun index => Element.IsSettled.sameThrough (settled index) (right.element index)]

theorem Element.IsSettled.sameThrough {element : Element} :
    element.IsSettled → ∀ right, element.sameThrough later right = element.sameThrough later' right
  | .value settled, right => by
      rw [Element.sameThrough, Element.sameThrough]
      refine congrArg (_ >>= ·) (funext fun outcome => ?_)
      cases outcome with
      | ok other => exact Value.IsSettled.sameThrough settled other
      | error failure => rfl
  | .failure failure, right => by
      -- The right element is read all the same, and then the two differ.
      have differs (later : Value × Value → Action H Bool) :
          (Element.failure failure).sameThrough later right =
            Action.attempt right.force >>= fun _ => pure false :=
        rfl
      rw [differs, differs]

end

end Equality

/-! ### One round -/

section Rounds

variable {value right : Value} {budget : Nat}

theorem Value.IsSettled.text_eq (settled : value.IsSettled) (positive : 0 < budget) :
    (value.text : Action H String) = Action.rounds Value.textThrough budget value := by
  refine Action.rounds_eq_of_step (fun later later' => ?_) (by decide) positive
  obtain ⟨text, texts⟩ := settled.textThrough (H := H)
  rw [texts, texts]

theorem Value.IsSettled.depth_eq (settled : value.IsSettled) (positive : 0 < budget) :
    (value.depth : Action H Nat) = Action.rounds Value.depthThrough budget value :=
  Action.rounds_eq_of_step (fun later later' => settled.depthThrough later later') (by decide)
    positive

theorem Value.IsSettled.mapLeaves_eq (rule : Value → Outcome Value) (settled : value.IsSettled)
    (positive : 0 < budget) :
    (Value.mapLeaves rule value : Action H Value) =
      Action.rounds (Value.mapLeavesThrough rule) budget value :=
  Action.rounds_eq_of_step (fun later later' => settled.mapLeavesThrough rule later later')
    (by decide) positive

theorem Value.IsSettled.zipLeaves_eq (rule : Value → Value → Outcome Value)
    (settled : value.IsSettled) (settledRight : right.IsSettled) (positive : 0 < budget) :
    (Value.zipLeaves rule value right : Action H Value) =
      Action.rounds (fun later pair => pair.1.zipLeavesThrough rule later pair.2) budget
        (value, right) :=
  Action.rounds_eq_of_step
    (fun later later' => Value.IsSettled.zipLeavesThrough rule later later' settledRight settled)
    (by decide) positive

theorem Value.IsSettled.same_eq (settled : value.IsSettled) (positive : 0 < budget) :
    (Value.same value right : Action H Bool) =
      Action.rounds (fun later pair => pair.1.sameThrough later pair.2) budget (value, right) :=
  Action.rounds_eq_of_step (fun later later' => settled.sameThrough later later' right)
    (by decide) positive

end Rounds

end PointFree
