import PointFree.Machine
import PointFree.Proofs.Compilation.Lowering

/-!
Contract: what loading makes of any code.

Nothing is supposed of the words of a program. Loading a block takes one word after the
other, each at most once and none from outside the code. It ends in a fault of running, or
in a routine whose last step returns and which makes functions of later blocks alone.
-/

namespace PointFree

/-! ### Words -/

/-- The positions of the words that the instructions of a reading take, where the words up to
`reached` have been taken before. -/
def Reading.taken : (reached : Nat) → Reading → List Nat
  | reached, .broken position .truncated => List.range' reached (position - reached)
  | _, .broken position _ => [position]
  | _, .finish position => [position]
  | _, .next position instruction rest =>
      List.range' position instruction.width ++ rest.taken (position + instruction.width)

mutual

/-- The blocks of which the evaluation of a node makes functions. -/
def Node.closures : Node → List Nat
  | .constant _ | .load _ _ => []
  | .closure block => [block]
  | .list items => Node.closuresEach items
  | .call right function => right.closures ++ function.closures
  | .callBoth right function left => right.closures ++ (function.closures ++ left.closures)
  | .atop right left => right.closures ++ left.closures
  | .fork right middle left => right.closures ++ (middle.closures ++ left.closures)
  | .modifyOne _ operand => operand.closures
  | .modifyTwo _ right left => right.closures ++ left.closures
  | .define value _ | .assign value _ => value.closures
  | .updateWith argument function _ => argument.closures ++ function.closures
  | .update function _ => function.closures
termination_by structural node => node

def Node.closuresEach : List Node → List Nat
  | [] => []
  | node :: nodes => node.closures ++ Node.closuresEach nodes
termination_by structural nodes => nodes

end

def Step.closures : Step → List Nat
  | .evaluate node _ | .finish node _ => node.closures
  | .guard test fallback _ => test.closures ++ fallback.closures

def Entry.closures : Entry → List Nat
  | .value node => node.closures
  | .place _ => []

def Routine.closures (routine : Routine) : List Nat :=
  routine.steps.flatMap Step.closures

/-- A routine that can be run whatever its code was. -/
structure Routine.IsGuarded (count : Nat) (routine : Routine) : Prop where
  /-- What a call passes has its place in the new frame. -/
  passes (this : Function) (right : Value) (left : Option Value) :
    (routine.slots this right left).toList.take reservedSlots =
      [some (.function this), some right, left]
  /-- Nothing that might follow the steps is ever reached. -/
  returns {H : Type} [Activations H] (program frame : Nat) (further : List Step) :
    (Step.execute routine.index program frame (routine.steps ++ further) : Action H Value) =
      routine.run program frame
  /-- Functions are made of later blocks alone. -/
  upward : ∀ block ∈ routine.closures, routine.index < block ∧ block < count

/-- The routines of a program, each under the number that it bears. -/
def Routine.AreGuarded (routines : List Routine) : Prop :=
  ∀ (index : Nat) (routine : Routine), routines[index]? = some routine →
    routine.index = index ∧ routine.IsGuarded routines.length

/-- Either a result as it is wanted, or a fault of running. -/
def Outcome.Secures {α : Type} (wanted : α → Prop) : Outcome α → Prop
  | .ok result => wanted result
  | .error failure => failure.kind = .runtime

section Outcomes

variable {α β : Type} {wanted : α → Prop} {wanted' : β → Prop}

theorem Outcome.Secures.bind {outcome : Outcome α} {next : α → Outcome β}
    (first : outcome.Secures wanted)
    (rest : ∀ result, wanted result → (next result).Secures wanted') :
    (outcome >>= next).Secures wanted' := by
  cases outcome with
  | ok result => exact rest result first
  | error failure => exact first

theorem Outcome.Secures.imp {wanted' : α → Prop} {outcome : Outcome α}
    (secures : outcome.Secures wanted) (weaken : ∀ result, wanted result → wanted' result) :
    outcome.Secures wanted' := by
  cases outcome with
  | ok result => exact weaken result secures
  | error failure => exact secures

theorem Outcome.Secures.map {outcome : Outcome α} {change : α → β}
    (secures : outcome.Secures wanted)
    (changed : ∀ result, wanted result → wanted' (change result)) :
    Outcome.Secures wanted' (outcome.map change) := by
  cases outcome with
  | ok result => exact changed result secures
  | error failure => exact secures

end Outcomes

namespace Loading

/-! ### The stack -/

section Stack

variable {holds : Nat → Prop} {stack : List Entry}

/-- Functions are made of blocks as required, wherever the entries end up. -/
def StackHolds (holds : Nat → Prop) (stack : List Entry) : Prop :=
  ∀ entry ∈ stack, ∀ block ∈ entry.closures, holds block

theorem StackHolds.push (held : StackHolds holds stack) {entry : Entry}
    (here : ∀ block ∈ entry.closures, holds block) : StackHolds holds (entry :: stack) :=
  List.forall_mem_cons.2 ⟨here, held⟩

end Stack

/-! ### Instructions -/

/-- Functions are made of blocks as required, whatever becomes of the rest of the code. -/
structure Holds (holds : Nat → Prop) (loading : Loading) : Prop where
  stack : StackHolds holds loading.stack
  test : ∀ node ∈ loading.test, ∀ block ∈ node.closures, holds block
  steps : ∀ step ∈ loading.steps, ∀ block ∈ step.closures, holds block

variable {holds : Nat → Prop} {loading : Loading} {surroundings : Surroundings}

theorem Holds.pushNode (held : loading.Holds holds) {stack : List Entry} {node : Node}
    (rest : StackHolds holds stack) (here : ∀ block ∈ node.closures, holds block) :
    (loading.pushNode stack node).Holds holds :=
  ⟨rest.push here, held.test, held.steps⟩

theorem Holds.pushPlace (held : loading.Holds holds) {stack : List Entry} (place : Place)
    (rest : StackHolds holds stack) : (loading.pushPlace stack place).Holds holds :=
  ⟨rest.push nofun, held.test, held.steps⟩

end Loading

end PointFree
