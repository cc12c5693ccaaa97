import PointFree.Program

/-!
Contract: the listing of a program.

One line per instruction: position, mnemonic, operands, and the constant that a
push takes. A heading stands before the first instruction at or after the start
of a block. The listing reads the words from the first to the last, whatever
they hold.
-/

namespace PointFree

/-- A number in at least five columns. -/
def positionColumn (position : Nat) : String :=
  let digits := toString position
  String.ofList (List.replicate (5 - digits.length) ' ') ++ digits

structure BlockHeading where
  start : Nat
  index : Nat
  frameSize : Nat
deriving DecidableEq, Repr

def BlockHeading.precedes (left right : BlockHeading) : Bool :=
  left.start < right.start || (left.start == right.start && left.index ≤ right.index)

def BlockHeading.text (heading : BlockHeading) : String :=
  "block " ++ toString heading.index ++ " (frame " ++ toString heading.frameSize ++ "):\n"

/-- The headings in the order of the starts of their blocks. -/
def Program.headings (program : Program) : List BlockHeading :=
  let numbered := program.blocks.zipIdx.map fun entry =>
    ⟨entry.1.start, entry.2, entry.1.frameSize⟩
  numbered.mergeSort BlockHeading.precedes

/-- What one line of a listing shows. -/
inductive ListingLine where
  | heading (heading : BlockHeading)
  | instruction (position : Nat) (opcode : Opcode) (operands : List UInt32)
  | unknown (position : Nat) (word : UInt32)
deriving DecidableEq

/-- The lines from a position on; `skip` words belong to the line before. -/
def listingFrom (skip position : Nat) (headings : List BlockHeading) :
    List UInt32 → List ListingLine
  | [] => []
  | word :: rest =>
      match skip with
      | skip + 1 => listingFrom skip (position + 1) headings rest
      | 0 =>
          let due := headings.takeWhile fun heading => heading.start ≤ position
          let later := headings.dropWhile fun heading => heading.start ≤ position
          let lines :=
            match Opcode.ofCode? word.toNat with
            | none => .unknown position word :: listingFrom 0 (position + 1) later rest
            | some opcode =>
                .instruction position opcode (rest.take opcode.operandCount)
                  :: listingFrom opcode.operandCount (position + 1) later rest
          due.map ListingLine.heading ++ lines

def Program.listingLines (program : Program) : List ListingLine :=
  listingFrom 0 0 program.headings program.code.toList

def constantComment (constants : Array Value) (opcode : Opcode) (operands : List UInt32) :
    Run String :=
  match opcode, operands with
  | .push, operand :: _ =>
      match constants[operand.toNat]? with
      | some value => do
          let text ← value.text
          return "  ; " ++ text
      | none => return ""
  | _, _ => return ""

def ListingLine.text (constants : Array Value) : ListingLine → Run String
  | .heading block => return block.text
  | .instruction position opcode operands => do
      let comment ← constantComment constants opcode operands
      return positionColumn position ++ "  " ++ opcode.mnemonic
        ++ String.join (operands.map fun operand => " " ++ toString operand.toNat)
        ++ comment ++ "\n"
  | .unknown position word =>
      return positionColumn position ++ "  ??? " ++ toString word.toNat ++ "\n"

def Program.listing (program : Program) : Run String := do
  let texts ← program.listingLines.mapM (ListingLine.text program.constants)
  return String.join texts

end PointFree
