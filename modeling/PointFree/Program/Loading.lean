import PointFree.Program

/-!
Contract: making the blocks of a program ready to run.

The instructions of a block are replayed on a stack of expression trees instead
of values. Every statement thus becomes one tree, and nothing is decoded when
the block is called. A block may make functions only of blocks with a higher
number, so the blocks are taken from the last to the first. Code that does not
fit together is refused with the position of the fault.
-/

namespace PointFree

/-- What stands on the stack while a block is loaded. -/
inductive Entry where
  | value (node : Node)
  | place (place : Place)

/-- A block in the course of loading; the latest step comes first. -/
structure Loading where
  stack : List Entry
  test : Option (Node)
  steps : List (Step)

def Loading.start : Loading :=
  ⟨[], none, []⟩

def malformed {α : Type} (position : Nat) (malformation : Malformation) : Outcome α :=
  refuse (.malformed position malformation)

/-- Pops a value; faults of the stack are reported at the word after the
instruction. -/
def popValue (after : Nat) : List Entry → Outcome (Node × List Entry)
  | .value node :: rest => .ok (node, rest)
  | .place _ :: _ => malformed after .targetForValue
  | [] => malformed after .underflow

def popPlace (after : Nat) : List Entry → Outcome (Place × List Entry)
  | .place place :: rest => .ok (place, rest)
  | .value _ :: _ => malformed after .valueForTarget
  | [] => malformed after .underflow

/-- Pops several values onto those already popped, so that they end up in the
order in which they were pushed. -/
def popValues (after : Nat) :
    (count : Nat) → List (Node) → List Entry → Outcome (List (Node) × List Entry)
  | 0, found, stack => .ok (found, stack)
  | count + 1, found, stack => do
      let popped ← popValue after stack
      popValues after count (popped.1 :: found) popped.2

def popPlaces (after : Nat) :
    (count : Nat) → List Place → List Entry → Outcome (List Place × List Entry)
  | 0, found, stack => .ok (found, stack)
  | count + 1, found, stack => do
      let popped ← popPlace after stack
      popPlaces after count (popped.1 :: found) popped.2

/-- What an instruction may refer to. -/
structure Surroundings where
  constants : Array Value
  isLoaded : Nat → Bool

namespace Loading

def pushNode (loading : Loading) (stack : List Entry) (node : Node) : Loading :=
  { loading with stack := .value node :: stack }

def pushPlace (loading : Loading) (stack : List Entry) (place : Place) : Loading :=
  { loading with stack := .place place :: stack }

/-- Replays one instruction. -/
def replay (surroundings : Surroundings) (position : Nat) (span : Option Span)
    (loading : Loading) (instruction : Instruction) : Outcome Loading :=
  let after := position + instruction.width
  match instruction with
  | .push constant =>
      match surroundings.constants[constant]? with
      | some value => .ok (loading.pushNode loading.stack (.constant value))
      | none => malformed position .constantOutOfRange
  | .closure block =>
      if surroundings.isLoaded block then .ok (loading.pushNode loading.stack (.closure block))
      else malformed position .blockOutOfOrder
  | .load depth slot => .ok (loading.pushNode loading.stack (.load depth slot))
  | .place depth slot => .ok (loading.pushPlace loading.stack (.slot depth slot))
  | .list count => do
      let items ← popValues after count [] loading.stack
      return loading.pushNode items.2 (.list items.1)
  | .places count => do
      let items ← popPlaces after count [] loading.stack
      return loading.pushPlace items.2 (.list items.1)
  | .call => do
      let function ← popValue after loading.stack
      let right ← popValue after function.2
      return loading.pushNode right.2 (.call right.1 function.1)
  | .callBoth => do
      let left ← popValue after loading.stack
      let function ← popValue after left.2
      let right ← popValue after function.2
      return loading.pushNode right.2 (.callBoth right.1 function.1 left.1)
  | .atop => do
      let left ← popValue after loading.stack
      let right ← popValue after left.2
      return loading.pushNode right.2 (.atop right.1 left.1)
  | .fork => do
      let left ← popValue after loading.stack
      let middle ← popValue after left.2
      let right ← popValue after middle.2
      return loading.pushNode right.2 (.fork right.1 middle.1 left.1)
  | .modifyOne code =>
      match OneModifier.ofCode? code with
      | none => malformed position .unknownOneModifier
      | some modifier => do
          let operand ← popValue after loading.stack
          return loading.pushNode operand.2 (.modifyOne modifier operand.1)
  | .modifyTwo code =>
      match TwoModifier.ofCode? code with
      | none => malformed position .unknownTwoModifier
      | some modifier => do
          let left ← popValue after loading.stack
          let right ← popValue after left.2
          return loading.pushNode right.2 (.modifyTwo modifier right.1 left.1)
  | .define => do
      let place ← popPlace after loading.stack
      let value ← popValue after place.2
      return loading.pushNode value.2 (.define value.1 place.1)
  | .assign => do
      let place ← popPlace after loading.stack
      let value ← popValue after place.2
      return loading.pushNode value.2 (.assign value.1 place.1)
  | .updateWith => do
      let place ← popPlace after loading.stack
      let function ← popValue after place.2
      let argument ← popValue after function.2
      return loading.pushNode argument.2 (.updateWith argument.1 function.1 place.1)
  | .update => do
      let place ← popPlace after loading.stack
      let function ← popValue after place.2
      return loading.pushNode function.2 (.update function.1 place.1)
  | .discard => do
      let node ← popValue after loading.stack
      return { loading with stack := node.2, steps := .evaluate node.1 span :: loading.steps }
  | .finish => do
      let node ← popValue after loading.stack
      return { loading with stack := node.2, steps := .finish node.1 span :: loading.steps }
  | .test =>
      match loading.test with
      | some _ => malformed position .nestedGuard
      | none => do
          let node ← popValue after loading.stack
          return { loading with stack := node.2, test := some node.1 }
  | .fallback => do
      let node ← popValue after loading.stack
      match loading.test with
      | none => malformed position .guardWithoutTest
      | some test =>
          return ⟨node.2, none, .guard test node.1 span :: loading.steps⟩

/-- The statements of a block, once nothing is left over. -/
def close (after : Nat) (loading : Loading) : Outcome (List (Step)) :=
  if loading.stack.isEmpty && loading.test.isNone then .ok loading.steps.reverse
  else malformed after .leftover

/-- Replays a block up to the instruction that returns. -/
def replayAll (surroundings : Surroundings) (locate : Nat → Option Span) :
    Reading → Loading → Outcome (List (Step))
  | .broken position malformation, _ => malformed position malformation
  | .finish position, loading => do
      let finished ← loading.replay surroundings position (locate position) .finish
      finished.close (position + 1)
  | .next position instruction rest, loading => do
      let replayed ← loading.replay surroundings position (locate position) instruction
      replayAll surroundings locate rest replayed

end Loading

/-- The words of the code from a position on. -/
def Program.reading (program : Program) (start : Nat) : Reading :=
  Reading.ofWords 0 start (program.code.toList.drop start)

/-- Loads one block; the blocks after it are loaded already. -/
def Program.loadBlock (program : Program) (limit index : Nat) (entry : BlockEntry) :
    Outcome Routine :=
  let isLoaded (block : Nat) : Bool := index < block && block < program.blocks.length
  (Loading.replayAll ⟨program.constants, isLoaded⟩ program.locationAt
    (program.reading entry.start) .start).map (.mk index entry.frameSize limit)

/-- Loads the blocks from a number on. -/
def Program.loadFrom (program : Program) (limit : Nat) :
    (index : Nat) → List BlockEntry → Outcome (List Routine)
  | _, [] => .ok []
  | index, entry :: rest => do
      let later ← program.loadFrom limit (index + 1) rest
      let routine ← program.loadBlock limit index entry
      return routine :: later

end PointFree
