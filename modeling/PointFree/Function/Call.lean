import PointFree.Function.Operation
import PointFree.Routine.Execution

/-!
Contract: calling functions.

A call has a right argument and perhaps a left one, and goes forward or
backward through the function; backward is the declared inverse. `Function.apply`
follows the way the function was made, enters blocks as the heap has it, and
leaves the functions that come up on the way, in blocks and in pending elements,
to the action. `callAt` closes the circle: it applies the function, each call
inside another with a smaller budget, of which there is more than any limit on
the depth of calls allows to be spent.
-/

namespace PointFree

variable {H : Type} [Blocks H]

inductive Direction where
  | forward
  | backward
deriving DecidableEq, Repr

def Direction.turn : Direction → Direction
  | .forward => .backward
  | .backward => .forward

mutual

def Function.apply : Function → Direction → Operation H
  | .mk stamp form, direction, right, left => form.apply stamp direction right left
termination_by structural function => function

def Form.apply : Form → (stamp : Nat) → Direction → Operation H
  | .primitive primitive, _, .forward, right, left => primitive.apply right left
  | .constant content _, _, .forward, _, _ => return content
  | .atop outer inner, _, .forward, right, left => do
      let between ← inner.apply .forward right left
      outer.apply .forward between none
  | .fork before middle after, _, .forward, right, left => do
      let second ← after.apply .forward right left
      let first ← before.apply .forward right left
      middle.apply .forward second (some first)
  | .over outer inner, _, .forward, right, left => do
      let second ← inner.apply .forward right none
      match left with
      | none => outer.apply .forward second none
      | some other => do
          let first ← inner.apply .forward other none
          outer.apply .forward second (some first)
  | .under work guise, _, .forward, right, left => do
      let inside ← guise.apply .forward right left
      let worked ← work.apply .forward inside none
      guise.apply .backward worked none
  | .rank operand degree, _, .forward, right, left => do
      let asked ← degree.apply .forward right left
      let rank ← asked.toInteger
      Operation.atRank (operand.apply .forward) rank right left
  | .before early late, _, .forward, right, left => do
      let first ← early.apply .forward (left.getD right) none
      late.apply .forward right (some first)
  | .after late early, _, .forward, right, left => do
      let second ← early.apply .forward right none
      late.apply .forward second (some (left.getD right))
  | .swap operand, _, .forward, right, left =>
      operand.apply .forward (left.getD right) (some right)
  | .each operand, _, .forward, right, left =>
      Operation.each (operand.apply .forward) right left
  | .table operand, _, .forward, right, left =>
      Operation.table (operand.apply .forward) right left
  | .cells operand, _, .forward, right, left =>
      Operation.cells (operand.apply .forward) right left
  | .fold operand, _, .forward, right, left =>
      Operation.fold (operand.apply .forward) right left
  | .scan operand, _, .forward, right, left =>
      Operation.scan (operand.apply .forward) right left
  | .inverse operand, _, direction, right, left =>
      operand.apply direction.turn right left
  | .block program block frame, stamp, .forward, right, left =>
      Blocks.enter program block frame (.mk stamp (.block program block frame)) right left
  | .primitive primitive, _, .backward, right, left =>
      if primitive.isInvertible then primitive.applyInverse right left
      else Action.refuse (.noInverse (Form.primitive primitive).name)
  | .atop outer inner, _, .backward, right, left =>
      if outer.hasInverse && inner.hasInverse then do
        let between ← outer.apply .backward right none
        inner.apply .backward between left
      else Action.refuse (.noInverse (Form.atop outer inner).name)
  | .under work guise, _, .backward, right, left =>
      if work.hasInverse then do
        let inside ← guise.apply .forward right left
        let worked ← work.apply .backward inside none
        guise.apply .backward worked none
      else Action.refuse (.noInverse (Form.under work guise).name)
  | .each operand, _, .backward, right, left =>
      if operand.hasInverse then
        Operation.each (operand.apply .backward) right left
      else Action.refuse (.noInverse (Form.each operand).name)
  | form, _, .backward, _, _ => Action.refuse (.noInverse form.name)
termination_by structural form => form

end

namespace Function

def call (function : Function) : Operation H :=
  function.apply .forward

def undo (function : Function) : Operation H :=
  function.apply .backward

end Function

/-- Calls that may have so many calls inside one another. -/
def callAt : (budget : Nat) → Call H
  | 0, _, _, _ => fun memory => (refuse (.callDepthExceeded callBudget), memory)
  | budget + 1, function, right, left => function.call right left (callAt budget)

/-- The action with all the calls it may make. -/
def Action.perform {α : Type} (action : Action H α) : Effect H α :=
  action (callAt callBudget)

end PointFree
