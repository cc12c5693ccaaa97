import PointFree.Fault

/-!
Contract: the instructions of compiled programs.

An instruction is an opcode word followed by its operand words. Its stack
effect is written with the operands in the order in which they were pushed.
`Reading` is the instruction stream of one block as its words spell it, up to
the instruction that returns or to the first word that makes no sense.
-/

namespace PointFree

inductive Opcode where
  | push
  | closure
  | load
  | place
  | list
  | places
  | call
  | callBoth
  | atop
  | fork
  | modifyOne
  | modifyTwo
  | define
  | assign
  | updateWith
  | update
  | discard
  | finish
  | test
  | fallback
deriving DecidableEq, Repr

namespace Opcode

def all : List Opcode :=
  [.push, .closure, .load, .place, .list, .places, .call, .callBoth, .atop, .fork,
   .modifyOne, .modifyTwo, .define, .assign, .updateWith, .update, .discard, .finish,
   .test, .fallback]

def code : Opcode → Nat
  | .push => 0
  | .closure => 1
  | .load => 2
  | .place => 3
  | .list => 4
  | .places => 5
  | .call => 6
  | .callBoth => 7
  | .atop => 8
  | .fork => 9
  | .modifyOne => 10
  | .modifyTwo => 11
  | .define => 12
  | .assign => 13
  | .updateWith => 14
  | .update => 15
  | .discard => 16
  | .finish => 17
  | .test => 18
  | .fallback => 19

def mnemonic : Opcode → String
  | .push => "PUSH"
  | .closure => "DFND"
  | .load => "VARO"
  | .place => "VARM"
  | .list => "ARRO"
  | .places => "ARRM"
  | .call => "FN1C"
  | .callBoth => "FN2C"
  | .atop => "TR2D"
  | .fork => "TR3D"
  | .modifyOne => "MD1C"
  | .modifyTwo => "MD2C"
  | .define => "SETN"
  | .assign => "SETU"
  | .updateWith => "SETM"
  | .update => "SETC"
  | .discard => "POPS"
  | .finish => "RETN"
  | .test => "PRED"
  | .fallback => "GRET"

def operandCount : Opcode → Nat
  | .push | .closure | .list | .places | .modifyOne | .modifyTwo => 1
  | .load | .place => 2
  | _ => 0

def ofCode? (code : Nat) : Option Opcode :=
  all[code]?

theorem ofCode?_code (opcode : Opcode) : ofCode? opcode.code = some opcode := by
  cases opcode <;> decide

end Opcode

inductive Instruction where
  /-- Pushes a constant of the pool. -/
  | push (constant : Nat)
  /-- Pushes a function for a block, made in the current frame. -/
  | closure (block : Nat)
  /-- Pushes the value of a variable. -/
  | load (depth slot : Nat)
  /-- Pushes a variable as a place to store in. -/
  | place (depth slot : Nat)
  /-- Gathers values into a list. -/
  | list (count : Nat)
  /-- Gathers places into one for destructuring. -/
  | places (count : Nat)
  /-- Right argument, function: the result of the call. -/
  | call
  /-- Right argument, function, left argument: the result of the call. -/
  | callBoth
  /-- Right function, left function: their train. -/
  | atop
  /-- Right, middle and left function: their train. -/
  | fork
  /-- Operand: the modified function. -/
  | modifyOne (modifier : Nat)
  /-- Right operand, left operand: the modified function. -/
  | modifyTwo (modifier : Nat)
  /-- Value, place: the value, stored in new variables. -/
  | define
  /-- Value, place: the value, stored in variables that are set. -/
  | assign
  /-- Argument, function, place: the new value of the place. -/
  | updateWith
  /-- Function, place: the new value of the place. -/
  | update
  /-- Ends a statement whose value is not used. -/
  | discard
  /-- Returns the value on top. -/
  | finish
  /-- Goes on when the value on top holds, and up to the fallback otherwise. -/
  | test
  /-- Returns the value on top when the test before it failed. -/
  | fallback
deriving DecidableEq, Repr

namespace Instruction

def opcode : Instruction → Opcode
  | .push _ => .push
  | .closure _ => .closure
  | .load _ _ => .load
  | .place _ _ => .place
  | .list _ => .list
  | .places _ => .places
  | .call => .call
  | .callBoth => .callBoth
  | .atop => .atop
  | .fork => .fork
  | .modifyOne _ => .modifyOne
  | .modifyTwo _ => .modifyTwo
  | .define => .define
  | .assign => .assign
  | .updateWith => .updateWith
  | .update => .update
  | .discard => .discard
  | .finish => .finish
  | .test => .test
  | .fallback => .fallback

def operands : Instruction → List Nat
  | .push operand | .closure operand | .list operand | .places operand => [operand]
  | .modifyOne operand | .modifyTwo operand => [operand]
  | .load depth slot | .place depth slot => [depth, slot]
  | _ => []

/-- The instruction of an opcode whose operands come next, if they all do. -/
def complete? : Opcode → List UInt32 → Option Instruction
  | .push, operand :: _ => some (.push operand.toNat)
  | .closure, operand :: _ => some (.closure operand.toNat)
  | .load, depth :: slot :: _ => some (.load depth.toNat slot.toNat)
  | .place, depth :: slot :: _ => some (.place depth.toNat slot.toNat)
  | .list, operand :: _ => some (.list operand.toNat)
  | .places, operand :: _ => some (.places operand.toNat)
  | .call, _ => some .call
  | .callBoth, _ => some .callBoth
  | .atop, _ => some .atop
  | .fork, _ => some .fork
  | .modifyOne, operand :: _ => some (.modifyOne operand.toNat)
  | .modifyTwo, operand :: _ => some (.modifyTwo operand.toNat)
  | .define, _ => some .define
  | .assign, _ => some .assign
  | .updateWith, _ => some .updateWith
  | .update, _ => some .update
  | .discard, _ => some .discard
  | .finish, _ => some .finish
  | .test, _ => some .test
  | .fallback, _ => some .fallback
  | _, _ => none

/-- Number of words the instruction takes. -/
def width (instruction : Instruction) : Nat :=
  1 + instruction.operands.length

end Instruction

/-- The instructions of a block with their positions. -/
inductive Reading where
  | broken (position : Nat) (malformation : Malformation)
  | finish (position : Nat)
  | next (position : Nat) (instruction : Instruction) (rest : Reading)

/-- Reads words from a position on, after passing over the operands of the
instruction before. -/
def Reading.ofWords (skip position : Nat) : List UInt32 → Reading
  | [] => .broken position .truncated
  | word :: rest =>
      match skip with
      | skip + 1 => Reading.ofWords skip (position + 1) rest
      | 0 =>
          match Opcode.ofCode? word.toNat with
          | none => .broken position .unknownOpcode
          | some opcode =>
              match Instruction.complete? opcode rest with
              | none => .broken (position + 1 + rest.length) .truncated
              | some .finish => .finish position
              | some instruction =>
                  .next position instruction
                    (Reading.ofWords opcode.operandCount (position + 1) rest)

end PointFree
