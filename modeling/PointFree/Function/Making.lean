import PointFree.Primitive.Forms

/-!
Contract: making functions from functions.

A function has an inverse when the way it was made declares one. A modifier
turns its operands into a new function; undoing and computing under a function
are refused at once when the inverse they need is missing. Data as an operand is
the function that returns it, made anew.
-/

namespace PointFree

variable {H : Type}

mutual

def Function.hasInverse : Function → Bool
  | .mk _ form => form.hasInverse
termination_by structural function => function

def Form.hasInverse : Form → Bool
  | .primitive primitive => primitive.isInvertible
  | .atop left right => left.hasInverse && right.hasInverse
  | .under left _ => left.hasInverse
  | .each operand => operand.hasInverse
  | .inverse _ => true
  | _ => false
termination_by structural form => form

end

/-- The function with its inverse, or the report that it has none. -/
def Function.requireInverse (function : Function) : Outcome Function :=
  if function.hasInverse then .ok function else refuse (.noInverse function.name)

/-- The function that returns a value, whatever its arguments. -/
def Function.constant (content : Value) : Action H Function := do
  let written ← content.text
  Action.make (.constant content written)

/-- Data serves as the function that returns it. -/
def Value.toFunction : Value → Action H Function
  | .function operation => return operation
  | data => Function.constant data

def OneModifier.apply (modifier : OneModifier) (operand : Value) : Action H Function := do
  let function ← operand.toFunction
  match modifier with
  | .constant => Function.constant operand
  | .swap => Action.make (.swap function)
  | .each => Action.make (.each function)
  | .table => Action.make (.table function)
  | .cells => Action.make (.cells function)
  | .fold => Action.make (.fold function)
  | .scan => Action.make (.scan function)
  | .undo => do
      let invertible ← function.requireInverse
      Action.make (.inverse invertible)

def TwoModifier.apply (modifier : TwoModifier) (leftOperand rightOperand : Value) :
    Action H Function := do
  let left ← leftOperand.toFunction
  let right ← rightOperand.toFunction
  match modifier with
  | .atop => Action.make (.atop left right)
  | .over => Action.make (.over left right)
  | .under => do
      let invertible ← right.requireInverse
      Action.make (.under left invertible)
  | .rank => Action.make (.rank left right)
  | .before => Action.make (.before left right)
  | .after => Action.make (.after left right)

end PointFree
