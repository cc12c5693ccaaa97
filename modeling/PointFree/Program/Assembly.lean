import PointFree.Program
import PointFree.Program.Emission

/-!
Contract: compiling a block into a program.

Blocks are numbered in the order in which they are met and put together in that
order: the whole program first, then the function literals it mentions, then
those that they mention. Operands that a block left open are filled in as its
instructions are laid down.
-/

namespace PointFree

/-- A block that has a number and waits to be put together. -/
structure Task where
  body : Block
  /-- The scopes around the block, the innermost first. -/
  outer : List Scope
  /-- The names the block begins with. -/
  scope : Scope

/-- The program as far as it is put together. -/
structure Assembly where
  code : Array UInt32
  locations : Array (Option Span)
  constants : Array Value
  blocks : List BlockEntry
  /-- Number of blocks that have a number. -/
  numbered : Nat

/-- Operands are held in words of 32 bits. -/
def operandLimit : Nat := Nat.pow 2 32

def checkOperands (operands : List Nat) : Outcome Unit :=
  match operands.find? (operandLimit ≤ ·) with
  | some operand => refuse (.operandTooLarge operand)
  | none => .ok ()

namespace Assembly

def start (vocabulary : Vocabulary) : Assembly :=
  ⟨#[], #[], vocabulary.values, [], 1⟩

/-- Lays down one instruction. -/
def lay (assembly : Assembly) (span : Option Span) (instruction : Instruction) :
    Outcome Assembly := do
  checkOperands instruction.operands
  let words := (instruction.opcode.code :: instruction.operands).map Nat.toUInt32
  return { assembly with
    code := assembly.code ++ words
    locations := assembly.locations ++ words.map fun _ => span }

/-- Lays down what a block emitted and notes the bodies it mentions. -/
def layEmitted (state : Assembly × List Block) (located : Located) :
    Outcome (Assembly × List Block) :=
  let assembly := state.1
  Outcome.within located.2 <|
    match located.1 with
    | .instruction instruction =>
        (assembly.lay located.2 instruction).map (·, state.2)
    | .literal value =>
        ({ assembly with constants := assembly.constants.push value }.lay located.2
          (.push assembly.constants.size)).map (·, state.2)
    | .closure body =>
        ({ assembly with numbered := assembly.numbered + 1 }.lay located.2
          (.closure assembly.numbered)).map (·, state.2 ++ [body])

/-- Puts one block together, and lists the tasks that come of it. -/
def perform (vocabulary : Vocabulary) (assembly : Assembly) (task : Task) :
    Outcome (Assembly × List Task × Scope) := do
  let emitted ← task.body.emit vocabulary task.outer task.scope
  let laid ← emitted.1.foldlM layEmitted (assembly, [])
  let entry := ⟨assembly.code.size, emitted.2.frameSize⟩
  let tasks := laid.2.map fun body => ⟨body, emitted.2 :: task.outer, []⟩
  return ({ laid.1 with blocks := laid.1.blocks ++ [entry] }, tasks, emitted.2)

/-- Performs tasks until none is left. Every task beyond the first is a function
literal, so `budget` is their number. -/
def performAll (vocabulary : Vocabulary) :
    (budget : Nat) → Assembly → List Task → Outcome Assembly
  | 0, assembly, _ => .ok assembly
  | _, assembly, [] => .ok assembly
  | budget + 1, assembly, task :: waiting => do
      let done ← assembly.perform vocabulary task
      performAll vocabulary budget done.1 (waiting ++ done.2.1)

end Assembly

/-- Compiles a block as a whole program. `externals` names the values that the
program is given; they are its first top-level names. -/
def Block.compile (block : Block) (vocabulary : Vocabulary) (externals : List String) :
    Outcome Program := do
  let scope ← Scope.declareAll [] externals
  let top ← (Assembly.start vocabulary).perform vocabulary ⟨block, [], scope⟩
  let assembly ← Assembly.performAll vocabulary block.literals top.1 top.2.1
  return {
    code := assembly.code
    constants := assembly.constants
    blocks := assembly.blocks
    locations := assembly.locations
    externals := externals.length
    globals := top.2.2.addresses }

end PointFree
