import PointFree.Modifier
import PointFree.Value

/-!
Contract: executable blocks.

A routine is a block made ready to run: its statements as expression trees over
addressed variables. A function literal stands in it as the number of its block,
which a program that has been started knows. Its meaning is in
`PointFree.Routine.Execution`.
-/

namespace PointFree

/-- Where an assignment goes: one slot, so many frames out, or one place for
each cell of the value. -/
inductive Place where
  | slot (depth slot : Nat)
  | list (places : List Place)

/-- Operands are named by their side of the function they belong to. -/
inductive Node where
  | constant (value : Value)
  | closure (block : Nat)
  | load (depth slot : Nat)
  | list (items : List Node)
  | call (right function : Node)
  | callBoth (right function left : Node)
  | atop (right left : Node)
  | fork (right middle left : Node)
  | modifyOne (modifier : OneModifier) (operand : Node)
  | modifyTwo (modifier : TwoModifier) (right left : Node)
  | define (value : Node) (place : Place)
  | assign (value : Node) (place : Place)
  | updateWith (argument function : Node) (place : Place)
  | update (function : Node) (place : Place)

inductive Step where
  | evaluate (node : Node) (span : Option Span)
  | guard (test fallback : Node) (span : Option Span)
  | finish (node : Node) (span : Option Span)

structure Routine where
  /-- The number of the block in its program. -/
  index : Nat
  frameSize : Nat
  /-- The deepest nesting of calls in which the routine may still be entered. -/
  limit : Nat
  steps : List Step

end PointFree
