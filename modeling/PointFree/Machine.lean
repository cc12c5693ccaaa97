import PointFree.Program.Loading
import PointFree.Program.Scope
import PointFree.Routine.Execution

/-!
Contract: running programs.

A machine is a program with every block loaded. It can be run any number of
times, each time as a program started anew in a new top-level frame. The frame
is part of the result: it holds the bindings of the top level.
-/

namespace PointFree

/-- The deepest nesting of calls, where nothing else is asked for. -/
def defaultCallLimit : Nat := 64

structure Machine where
  top : Routine
  /-- Blocks other than the first. -/
  others : List Routine
  externals : Nat

namespace Machine

def load (program : Program) (limit : Nat) : Outcome Machine := do
  if program.blocks.isEmpty then refuse .noBlocks
  else
    let routines ← program.loadFrom limit 0 program.blocks
    match routines with
    | [] => refuse .noBlocks
    | top :: others => return ⟨top, others, program.externals⟩

def blockCount (machine : Machine) : Nat :=
  machine.others.length + 1

/-- The slots of the top level: the reserved ones, then the given values as far
as they fit. -/
def topSlots (frameSize : Nat) (globals : Array Value) : Array (Option Value) :=
  ((List.range frameSize).map fun slot =>
    if slot < reservedSlots then none else globals[slot - reservedSlots]?).toArray

/-- The value of the program and its top-level frame. -/
def run {H : Type} [Activations H] [Installed H] (machine : Machine) (globals : Array Value) :
    Action H (Value × Nat) := do
  if globals.size ≠ machine.externals then
    Action.refuse (.globalCount machine.externals globals.size)
  else
    let program ← Installed.install (machine.top :: machine.others)
    let frame ← Activations.newFrame (topSlots machine.top.frameSize globals) none
    let value ← machine.top.run program frame
    return (value, frame)

end Machine

def slotText : Option Value → Run String
  | none => return "None"
  | some value => do
      let text ← value.debugText
      return "Some(" ++ text ++ ")"

/-- The form for diagnostics. -/
def Frame.debugText (frame : Frame) : Run String := do
  let slots ← frame.slots.toList.mapM slotText
  return "Frame \x7b slots: [" ++ ", ".intercalate slots ++ "], nested: "
    ++ toString frame.parent.isSome ++ " \x7d"

end PointFree
