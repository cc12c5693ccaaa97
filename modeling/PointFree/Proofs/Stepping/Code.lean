import PointFree.Function.Call
import PointFree.Machine
import PointFree.Proofs.Compilation.Loading
import PointFree.Proofs.Correspondence.Action

/-!
Contract: an interpreter of instructions, and the code that was laid down for it.

The interpreter takes a block's instructions one at a time and keeps an operand stack of
values and places. Whatever an instruction pushes is computed when the instruction is
reached. The test of a guard decides whether the code up to the fallback's return is run
or passed over. A failure takes the span that the instruction stands at.

The code of a statement decides nothing about what runs next, except for the
instructions that end it. So it can be run on its own, and the interpreter goes on
after it with the operands that it left.
-/

namespace PointFree

inductive Operand where
  | value (value : Value)
  | place (place : Place)

/-- A program as it was compiled, and the deepest nesting of calls in which its blocks may
still be entered. -/
structure Bytecode where
  program : Program
  limit : Nat

namespace Operand

/-- So many values from the top, in the order in which they were pushed. -/
def values? : (count : Nat) → List Value → List Operand → Option (List Value × List Operand)
  | 0, found, stack => some (found, stack)
  | count + 1, found, .value top :: stack => values? count (top :: found) stack
  | _, _, _ => none

def places? : (count : Nat) → List Place → List Operand → Option (List Place × List Operand)
  | 0, found, stack => some (found, stack)
  | count + 1, found, .place top :: stack => places? count (top :: found) stack
  | _, _, _ => none

end Operand

section Interpreter

variable {H : Type} [Activations H]

/-- Runs one instruction of a program's block in a frame. Operands stand on the stack in
the order of their emission, the last one on top. -/
def Instruction.step (constants : Array Value) (program frame position : Nat) :
    Instruction → List Operand → Action H (List Operand)
  | .push constant, stack =>
      match constants[constant]? with
      | some value => return .value value :: stack
      | none => Action.refuse (.malformed position .constantOutOfRange)
  | .closure block, stack => do
      let function ← Action.make (.block program block frame)
      return .value (.function function) :: stack
  | .load depth slot, stack => do
      let value ← Activations.load frame depth slot
      return .value value :: stack
  | .place depth slot, stack => return .place (.slot depth slot) :: stack
  | .list count, stack =>
      match Operand.values? count [] stack with
      | some (found, rest) => return .value (.list found.toArray) :: rest
      | none => Action.refuse (.malformed position .underflow)
  | .places count, stack =>
      match Operand.places? count [] stack with
      | some (found, rest) => return .place (.list found) :: rest
      | none => Action.refuse (.malformed position .underflow)
  | .call, .value operator :: .value argument :: stack => do
      let result ← operator.call argument none
      return .value result :: stack
  | .callBoth, .value other :: .value operator :: .value argument :: stack => do
      let result ← operator.call argument (some other)
      return .value result :: stack
  | .atop, .value left :: .value right :: stack => do
      let outer ← left.toFunction
      let inner ← right.toFunction
      let function ← Action.make (.atop outer inner)
      return .value (.function function) :: stack
  | .fork, .value left :: .value middle :: .value right :: stack => do
      let before ← left.toFunction
      let between ← middle.toFunction
      let after ← right.toFunction
      let function ← Action.make (.fork before between after)
      return .value (.function function) :: stack
  | .modifyOne code, .value operand :: stack =>
      match OneModifier.ofCode? code with
      | some modifier => do
          let function ← modifier.apply operand
          return .value (.function function) :: stack
      | none => Action.refuse (.malformed position .unknownOneModifier)
  | .modifyTwo code, .value left :: .value right :: stack =>
      match TwoModifier.ofCode? code with
      | some modifier => do
          let function ← modifier.apply left right
          return .value (.function function) :: stack
      | none => Action.refuse (.malformed position .unknownTwoModifier)
  | .define, .place target :: .value value :: stack => do
      target.save true frame value
      return .value value :: stack
  | .assign, .place target :: .value value :: stack => do
      target.save false frame value
      return .value value :: stack
  | .updateWith, .place target :: .value operator :: .value argument :: stack => do
      let current ← target.load frame
      let computed ← operator.call argument (some current)
      target.save false frame computed
      return .value computed :: stack
  | .update, .place target :: .value operator :: stack => do
      let current ← target.load frame
      let computed ← operator.call current none
      target.save false frame computed
      return .value computed :: stack
  | .discard, .value _ :: stack => return stack
  | _, _ => Action.refuse (.malformed position .underflow)

/-- Runs a block's instructions up to the one that returns, or passes over those up to the
end of a fallback. -/
def Reading.interpret (step : Nat → Instruction → List Operand → Action H (List Operand))
    (locate : Nat → Option Span) : (passing : Bool) → Reading → List Operand → Action H Value
  | _, .broken position malformation, _ => Action.refuse (.malformed position malformation)
  | false, .finish _, .value result :: _ => return result
  | _, .finish position, _ => Action.refuse (.malformed position .underflow)
  | true, .next _ .fallback rest, stack => Reading.interpret step locate false rest stack
  | true, .next _ _ rest, stack => Reading.interpret step locate true rest stack
  | false, .next position .test rest, .value tested :: stack => do
      let holds ← Action.located (locate position) (liftM (guardNumber tested))
      if holds == 0.0 then Reading.interpret step locate false rest stack
      else Reading.interpret step locate true rest stack
  | false, .next _ .fallback _, .value result :: _ => return result
  | false, .next position instruction rest, stack => do
      let stack ← Action.located (locate position) (step position instruction stack)
      Reading.interpret step locate false rest stack

end Interpreter

namespace Bytecode

/-- Interprets a block in a frame that is there already. -/
def run (code : Bytecode) (program : Nat) (entry : BlockEntry) (frame : Nat) :
    Action (Heap Bytecode) Value :=
  Reading.interpret (Instruction.step code.program.constants program frame)
    code.program.locationAt false (code.program.reading entry.start) []

/-- The slots of a block's frame: the function, its arguments and no variable set yet. -/
def slots (entry : BlockEntry) (this : Function) (right : Value) (left : Option Value) :
    Array (Option Value) :=
  (((Array.replicate entry.frameSize none).setIfInBounds 0
    (some (.function this))).setIfInBounds 1 (some right)).setIfInBounds 2 left

/-- The program with a number, and one of its blocks. -/
def block (program block : Nat) : Action (Heap Bytecode) (Bytecode × BlockEntry) := do
  let memory ← get
  match memory.heap.programs[program]?.bind fun code =>
      code.program.blocks[block]?.map (code, ·) with
  | some found => return found
  | none => Action.refuse .released

instance : Blocks (Heap Bytecode) where
  enter program number frame this right left := do
    let found ← block program number
    Action.nested found.1.limit do
      let inner ← Heap.newFrame (slots found.2 this right left) (some frame)
      found.1.run program found.2 inner

/-- Interprets a program as a whole, and gives its top-level frame with its value. -/
def interpret (code : Bytecode) (globals : Array Value) : Action (Heap Bytecode) (Value × Nat) := do
  if globals.size ≠ code.program.externals then
    Action.refuse (.globalCount code.program.externals globals.size)
  else
    match code.program.blocks[0]? with
    | none => Action.refuse .noBlocks
    | some entry => do
        let program ← Heap.install code
        let frame ← Heap.newFrame (Machine.topSlots entry.frameSize globals) none
        let value ← code.run program entry frame
        return (value, frame)

end Bytecode

end PointFree

namespace PointFree

section Located

variable {H α β : Type}

theorem Action.located_bind (span : Option Span) (action : Action H α) (next : α → Action H β) :
    Action.located span (action >>= next) =
      (Action.located span action >>= fun result => Action.located span (next result)) := by
  funext calling memory
  cases ended : action calling memory with
  | mk outcome after =>
      cases outcome with
      | ok result =>
          have first : Action.located span action calling memory = (.ok result, after) := by
            rw [Action.located, ended]
            rfl
          rw [Action.bind_of_ok first, Action.located, Action.bind_of_ok ended]
          rfl
      | error failure =>
          have first : Action.located span action calling memory =
              (.error (failure.within span), after) := by
            rw [Action.located, ended]
            rfl
          rw [Action.bind_of_error first, Action.located, Action.bind_of_error ended]
          rfl

end Located

/-- An instruction after which the next one runs. -/
def Instruction.IsPlain (instruction : Instruction) : Prop :=
  instruction ≠ .finish ∧ instruction ≠ .test ∧ instruction ≠ .fallback

def IsPlainCode (code : List Instruction) : Prop :=
  ∀ instruction ∈ code, instruction.IsPlain

theorem IsPlainCode.append {first second : List Instruction} (firsts : IsPlainCode first)
    (seconds : IsPlainCode second) : IsPlainCode (first ++ second) :=
  List.forall_mem_append.2 ⟨firsts, seconds⟩

theorem IsPlainCode.single {instruction : Instruction} (plain : instruction.IsPlain) :
    IsPlainCode [instruction] :=
  List.forall_mem_singleton.2 plain

theorem IsPlainCode.concat {code : List Instruction} {instruction : Instruction}
    (codes : IsPlainCode code) (plain : instruction.IsPlain) :
    IsPlainCode (code ++ [instruction]) :=
  codes.append (.single plain)

section Running

variable {H : Type} {step : Nat → Instruction → List Operand → Action H (List Operand)}
variable {locate : Nat → Option Span} {span : Option Span} {position : Nat}
variable {code rest : List Instruction} {stack : List Operand}

/-- Runs instructions one after another. -/
def runCode (step : Nat → Instruction → List Operand → Action H (List Operand)) :
    (position : Nat) → List Instruction → List Operand → Action H (List Operand)
  | _, [], stack => return stack
  | position, instruction :: rest, stack => do
      let stack ← step position instruction stack
      runCode step (position + instruction.width) rest stack

theorem runCode_append (first second : List Instruction) (position : Nat)
    (stack : List Operand) :
    runCode step position (first ++ second) stack =
      runCode step position first stack >>= runCode step (position + codeWidth first) second := by
  induction first generalizing position stack with
  | nil => exact (pure_bind stack _).symm
  | cons instruction first inductionHypothesis =>
      rw [List.cons_append, runCode, runCode, bind_assoc]
      refine congrArg (step position instruction stack >>= ·) (funext fun stack => ?_)
      rw [inductionHypothesis, Nat.add_assoc]
      rfl

theorem runCode_singleton (instruction : Instruction) (position : Nat) (stack : List Operand) :
    runCode step position [instruction] stack = step position instruction stack :=
  bind_pure _

theorem Reading.ofList_cons {instruction : Instruction} (goes : instruction ≠ .finish) :
    Reading.ofList position (instruction :: rest) =
      .next position instruction (Reading.ofList (position + instruction.width) rest) := by
  cases instruction with
  | finish => exact absurd rfl goes
  | _ => rfl

theorem Reading.interpret_next {instruction : Instruction} (plain : instruction.IsPlain)
    (reading : Reading) :
    Reading.interpret step locate false (.next position instruction reading) stack =
      (do
        let stack ← Action.located (locate position) (step position instruction stack)
        Reading.interpret step locate false reading stack) := by
  obtain ⟨_, noTest, noFallback⟩ := plain
  cases instruction with
  | test => exact absurd rfl noTest
  | fallback => exact absurd rfl noFallback
  | _ => rfl

theorem Reading.interpret_passing {instruction : Instruction} (noFallback : instruction ≠ .fallback)
    (reading : Reading) :
    Reading.interpret step locate true (.next position instruction reading) stack =
      Reading.interpret step locate true reading stack := by
  cases instruction with
  | fallback => exact absurd rfl noFallback
  | _ => rfl

/-- Plain code of one statement runs as a whole, and then the rest. -/
theorem Reading.interpret_code (plain : IsPlainCode code)
    (spanned : Spanned locate position (placedAt span code)) :
    Reading.interpret step locate false (Reading.ofList position (code ++ rest)) stack =
      (do
        let stack ← Action.located span (runCode step position code stack)
        Reading.interpret step locate false
          (Reading.ofList (position + codeWidth code) rest) stack) := by
  induction code generalizing position stack with
  | nil => rfl
  | cons instruction code inductionHypothesis =>
      have first := plain instruction (.head _)
      obtain ⟨here, later⟩ := spanned
      rw [List.cons_append, Reading.ofList_cons first.1, Reading.interpret_next first, runCode,
        Action.located_bind, bind_assoc, here]
      refine congrArg (_ >>= ·) (funext fun stack => ?_)
      rw [inductionHypothesis (fun other member => plain other (.tail _ member)) later,
        Nat.add_assoc]
      rfl

/-- Plain code is passed over. -/
theorem Reading.interpret_passed (plain : IsPlainCode code) :
    Reading.interpret step locate true (Reading.ofList position (code ++ rest)) stack =
      Reading.interpret step locate true (Reading.ofList (position + codeWidth code) rest)
        stack := by
  induction code generalizing position with
  | nil => rfl
  | cons instruction code inductionHypothesis =>
      have first := plain instruction (.head _)
      rw [List.cons_append, Reading.ofList_cons first.1, Reading.interpret_passing first.2.2,
        inductionHypothesis fun other member => plain other (.tail _ member), Nat.add_assoc]
      rfl

/-- The code of a fallback is passed over with the instruction that ends it. -/
theorem Reading.interpret_skipped (plain : IsPlainCode code) :
    Reading.interpret step locate true (Reading.ofList position (code ++ .fallback :: rest))
        stack =
      Reading.interpret step locate false
        (Reading.ofList (position + codeWidth code + codeWidth [.fallback]) rest) stack :=
  (Reading.interpret_passed plain).trans rfl

end Running

/-! ### Lowered code -/

section Lowered

variable {site : Site} {scope : Scope}

mutual

theorem Expression.Lowers.isPlain : ∀ {expression : Expression} {code : List Instruction}
    {node : Node}, expression.Lowers site scope code node → IsPlainCode code
  | _, _, _, .number _ => .single ⟨nofun, nofun, nofun⟩
  | _, _, _, .character _ => .single ⟨nofun, nofun, nofun⟩
  | _, _, _, .string _ => .single ⟨nofun, nofun, nofun⟩
  | _, _, _, .name _ => .single ⟨nofun, nofun, nofun⟩
  | _, _, _, .primitive _ _ => .single ⟨nofun, nofun, nofun⟩
  | _, _, _, .implicit _ => .single ⟨nofun, nofun, nofun⟩
  | _, _, _, .list items => items.isPlain.concat ⟨nofun, nofun, nofun⟩
  | _, _, _, .call right function =>
      (right.isPlain.append function.isPlain).concat ⟨nofun, nofun, nofun⟩
  | _, _, _, .callBoth right function left =>
      ((right.isPlain.append function.isPlain).append left.isPlain).concat ⟨nofun, nofun, nofun⟩
  | _, _, _, .modifyOne _ operand => operand.isPlain.concat ⟨nofun, nofun, nofun⟩
  | _, _, _, .modifyTwo _ right left =>
      (right.isPlain.append left.isPlain).concat ⟨nofun, nofun, nofun⟩
  | _, _, _, .atop right left => (right.isPlain.append left.isPlain).concat ⟨nofun, nofun, nofun⟩
  | _, _, _, .fork right middle left =>
      ((right.isPlain.append middle.isPlain).append left.isPlain).concat ⟨nofun, nofun, nofun⟩
  | _, _, _, .block _ => .single ⟨nofun, nofun, nofun⟩

theorem Expression.LowersAll.isPlain : ∀ {items : List Expression} {code : List Instruction}
    {nodes : List Node}, Expression.LowersAll site scope items code nodes → IsPlainCode code
  | _, _, _, .nil => nofun
  | _, _, _, .cons item rest => item.isPlain.append rest.isPlain

end

mutual

theorem Target.Lowers.isPlain {scopes : List Scope} : ∀ {target : Target}
    {code : List Instruction} {place : Place}, target.Lowers scopes code place → IsPlainCode code
  | _, _, _, .name _ => .single ⟨nofun, nofun, nofun⟩
  | _, _, _, .list targets => targets.isPlain.concat ⟨nofun, nofun, nofun⟩

theorem Target.LowersAll.isPlain {scopes : List Scope} : ∀ {targets : List Target}
    {code : List Instruction} {places : List Place},
    Target.LowersAll scopes targets code places → IsPlainCode code
  | _, _, _, .nil => nofun
  | _, _, _, .cons target rest => target.isPlain.append rest.isPlain

end

theorem Clause.Lowers.isPlain {clause : Clause} {extended : Scope} {code : List Instruction}
    {node : Node} (lowers : clause.Lowers site scope extended code node) : IsPlainCode code := by
  cases lowers with
  | expression result => exact result.isPlain
  | define value _ target =>
      exact (value.isPlain.append target.isPlain).concat ⟨nofun, nofun, nofun⟩
  | assign value target =>
      exact (value.isPlain.append target.isPlain).concat ⟨nofun, nofun, nofun⟩
  | update function target =>
      exact (function.isPlain.append target.isPlain).concat ⟨nofun, nofun, nofun⟩
  | updateWith argument function target =>
      exact ((argument.isPlain.append function.isPlain).append target.isPlain).concat
        ⟨nofun, nofun, nofun⟩

end Lowered

end PointFree
