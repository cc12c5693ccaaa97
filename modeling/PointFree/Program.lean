import PointFree.Program.Instruction
import PointFree.Value.Text

/-!
Contract: compiled programs.

The code of every block stands in one stream of words. `locations` runs beside
it and says which statement a word belongs to. Block zero is the program as a
whole; its frame begins with the values the program is given from outside.
-/

namespace PointFree

structure BlockEntry where
  start : Nat
  frameSize : Nat
deriving DecidableEq, Repr

structure Program where
  code : Array UInt32
  constants : Array Value
  blocks : List BlockEntry
  locations : Array (Option Span)
  /-- Number of values the program is given. -/
  externals : Nat
  /-- The names of the top level with their slots, in order of their slots. -/
  globals : List (String × Nat)

/-- The statement that the word at a position belongs to, where known. -/
def Program.locationAt (program : Program) (position : Nat) : Option Span :=
  program.locations[position]?.join

def BlockEntry.debugText (entry : BlockEntry) : String :=
  "BlockInfo \x7b start: " ++ toString entry.start ++ ", frame_size: "
    ++ toString entry.frameSize ++ " \x7d"

/-- The form for diagnostics. -/
def Program.debugText (program : Program) : String :=
  "Program \x7b code: " ++ toString program.code.size ++ ", constants: "
    ++ toString program.constants.size ++ ", blocks: ["
    ++ ", ".intercalate (program.blocks.map BlockEntry.debugText) ++ "] \x7d"

end PointFree
