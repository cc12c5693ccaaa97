import PointFree.Function.Making

/-!
Contract: running a routine.

Operands are computed from the right: the right argument, the function, the
left argument. A statement's failure takes the statement's span unless it has
one already. Every entry into a block holds one level of call depth.
-/

namespace PointFree

variable {H : Type} [Activations H]

/-- Calling data gives the data. -/
def Value.call (operator right : Value) (left : Option Value) : Action H Value :=
  match operator with
  | .function operation => Action.call operation right left
  | data => return data

mutual

/-- Stores a value, taken apart into cells where the place is a list. -/
def Place.save (fresh : Bool) (frame : Nat) : Place → Value → Action H Unit
  | .slot depth position, value => Activations.save fresh frame depth position value
  | .list places, value =>
      match value with
      | .array items => do
          let cells ← items.majorCells
          if cells.size = places.length then
            Place.saveEach fresh frame places cells.toList
          else Action.refuse (.destructuredCells cells.size places.length)
      | other => Action.refuse (.destructuredKind other.kind places.length)
termination_by structural place => place

def Place.saveEach (fresh : Bool) (frame : Nat) : List Place → List Value → Action H Unit
  | place :: places, value :: values => do
      place.save fresh frame value
      Place.saveEach fresh frame places values
  | _, _ => return ()
termination_by structural places => places

end

/-- The value to be modified, which only a single slot has. -/
def Place.load (frame : Nat) : Place → Action H Value
  | .slot depth position => Activations.load frame depth position
  | .list _ => Action.refuse .destructuringModified

mutual

def Node.evaluate (program frame : Nat) : Node → Action H Value
  | .constant value => return value
  | .closure block => do
      let function ← Action.make (.block program block frame)
      return .function function
  | .load depth slot => Activations.load frame depth slot
  | .list items => do
      let values ← Node.evaluateEach program frame items
      return .list values.toArray
  | .call right function => do
      let argument ← right.evaluate program frame
      let operator ← function.evaluate program frame
      operator.call argument none
  | .callBoth right function left => do
      let argument ← right.evaluate program frame
      let operator ← function.evaluate program frame
      let other ← left.evaluate program frame
      operator.call argument (some other)
  | .atop right left => do
      let rightOperand ← right.evaluate program frame
      let inner ← rightOperand.toFunction
      let leftOperand ← left.evaluate program frame
      let outer ← leftOperand.toFunction
      let function ← Action.make (.atop outer inner)
      return .function function
  | .fork right middle left => do
      let rightOperand ← right.evaluate program frame
      let after ← rightOperand.toFunction
      let middleOperand ← middle.evaluate program frame
      let between ← middleOperand.toFunction
      let leftOperand ← left.evaluate program frame
      let before ← leftOperand.toFunction
      let function ← Action.make (.fork before between after)
      return .function function
  | .modifyOne modifier operand => do
      let value ← operand.evaluate program frame
      let function ← modifier.apply value
      return .function function
  | .modifyTwo modifier right left => do
      let second ← right.evaluate program frame
      let first ← left.evaluate program frame
      let function ← modifier.apply first second
      return .function function
  | .define value place => do
      let computed ← value.evaluate program frame
      place.save true frame computed
      return computed
  | .assign value place => do
      let computed ← value.evaluate program frame
      place.save false frame computed
      return computed
  | .updateWith argument function place => do
      let operand ← argument.evaluate program frame
      let operator ← function.evaluate program frame
      let current ← place.load frame
      let computed ← operator.call operand (some current)
      place.save false frame computed
      return computed
  | .update function place => do
      let operator ← function.evaluate program frame
      let current ← place.load frame
      let computed ← operator.call current none
      place.save false frame computed
      return computed
termination_by structural node => node

def Node.evaluateEach (program frame : Nat) : List (Node) → Action H (List Value)
  | [] => return []
  | node :: nodes => do
      let value ← node.evaluate program frame
      let values ← Node.evaluateEach program frame nodes
      return value :: values
termination_by structural nodes => nodes

end

/-- The number that decides a guard. -/
def guardNumber (tested : Value) : Outcome Float :=
  match tested with
  | .number number => .ok number
  | other => refuse (.guardNotNumber other.kind)

/-- Runs statements up to the one that returns. -/
def Step.execute (block program frame : Nat) : List (Step) → Action H Value
  | [] => Action.refuse (.noReturn block)
  | .evaluate node span :: rest => do
      let _ ← Action.located span (node.evaluate program frame)
      Step.execute block program frame rest
  | .guard test fallback span :: rest => do
      let holds ← Action.located span do
        let tested ← test.evaluate program frame
        guardNumber tested
      if holds == 0.0 then Action.located span (fallback.evaluate program frame)
      else Step.execute block program frame rest
  | .finish node span :: _ => Action.located span (node.evaluate program frame)

/-- Runs a routine in a frame that is there already. -/
def Routine.run (routine : Routine) (program frame : Nat) : Action H Value :=
  Step.execute routine.index program frame routine.steps

def Routine.slots (routine : Routine) (this : Function) (right : Value) (left : Option Value) :
    Array (Option Value) :=
  (((Array.replicate routine.frameSize none).setIfInBounds 0
    (some (.function this))).setIfInBounds 1 (some right)).setIfInBounds 2 left

/-- Enters a block in a frame of its own, linked to the one it was made in. -/
def Routine.invoke (routine : Routine) (program parent : Nat) (this : Function) (right : Value)
    (left : Option Value) : Action H Value :=
  Action.nested routine.limit do
    let frame ← Activations.newFrame (routine.slots this right left) (some parent)
    routine.run program frame

instance [Installed H] : Blocks H where
  enter program block frame this right left := do
    let routine ← Installed.routine program block
    routine.invoke program frame this right left

end PointFree
