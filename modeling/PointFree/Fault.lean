import PointFree.Decimal.Notation
import PointFree.Shape

/-!
Contract: what can go wrong, by cause.

Each constructor of `Fault` is one cause with the data its report names.
`Fault.kind` sorts the causes, and `Fault.message` is the only place where the
wording stands.
-/

namespace PointFree

inductive FaultKind where
  | parse
  | compile
  | undefinedName
  | shape
  | rank
  | domain
  | index
  | length
  | assertion
  | undoUnavailable
  | runtime
deriving DecidableEq, Repr

def FaultKind.label : FaultKind → String
  | .parse => "Parse"
  | .compile => "Compile"
  | .undefinedName => "Undefined name"
  | .shape => "Shape"
  | .rank => "Rank"
  | .domain => "Domain"
  | .index => "Index"
  | .length => "Length"
  | .assertion => "Assertion"
  | .undoUnavailable => "Undo unavailable"
  | .runtime => "Runtime"

/-- The four kinds of value. -/
inductive ValueKind where
  | number
  | character
  | array
  | function
deriving DecidableEq, Repr

def ValueKind.label : ValueKind → String
  | .number => "number"
  | .character => "character"
  | .array => "array"
  | .function => "function"

/-- What is wrong with an instruction stream. -/
inductive Malformation where
  | truncated
  | unknownOpcode
  | constantOutOfRange
  | blockOutOfOrder
  | unknownOneModifier
  | unknownTwoModifier
  | targetForValue
  | valueForTarget
  | underflow
  | nestedGuard
  | guardWithoutTest
  | leftover
deriving DecidableEq, Repr

def Malformation.label : Malformation → String
  | .truncated => "truncated instruction"
  | .unknownOpcode => "unknown opcode"
  | .constantOutOfRange => "constant out of range"
  | .blockOutOfOrder => "block defined out of order"
  | .unknownOneModifier => "unknown one-modifier"
  | .unknownTwoModifier => "unknown two-modifier"
  | .targetForValue => "expected a value, found a target"
  | .valueForTarget => "expected a target, found a value"
  | .underflow => "stack underflow"
  | .nestedGuard => "nested guard"
  | .guardWithoutTest => "guard return without a test"
  | .leftover => "block left values on the stack"

inductive Fault where
  -- reading source text
  | unexpected (found : Char)
  | unexpectedEnd
  | nestedTooDeeply (limit : Nat)
  -- assigning roles
  | modifiedExpression
  | modifiedByData (name : String)
  | malformedAssignment
  | destructuredExpression
  | unassignable
  | strandedModifier (glyph : Char)
  | strayAssignment
  | strayGuard
  | modifierWithoutOperand (glyph : Char)
  | modifierWithoutRightOperand (glyph : Char)
  | emptyExpression
  | adjacentValues
  | dataInTrain
  -- reading program documents
  | invalidDocument
  | documentNotObject
  | invalidProgram
  -- compiling
  | alreadyDefined (name : String)
  | unknownPrimitive (name : String)
  | unknownOneModifier (glyph : Char)
  | unknownTwoModifier (glyph : Char)
  | guardLast
  | emptyTarget
  | repeatedTarget (name : String)
  | operandTooLarge (operand : Nat)
  | notDefined (name : String)
  -- shapes
  | shapeTooLarge (shape : Shape)
  | fractionalDimension (dimension : Float)
  | dimensionBelowOne (dimension : Float)
  | misaligned (left right : Shape)
  | unmergeable (first other : Shape)
  | unmergeableScalar (first : Shape)
  -- ranks
  | scalarSlice
  | tooManyAxes (axes rank : Nat)
  | cellsOfScalar
  | foldOfScalar
  | scanOfScalar
  | needsCells (glyph : Char) (found : ValueKind)
  | pickByMany (indices rank : Nat)
  | pickByOne (rank : Nat)
  -- domains
  | numberExpected (found : ValueKind)
  | characterExpected (found : ValueKind)
  | fractionalIndex (number : Float)
  | fractional (number : Float)
  | unaddable (left right : ValueKind)
  | unsubtractable (left right : ValueKind)
  | fractionalShift (number : Float)
  | notACharacter (code : Int)
  | incomparableNumber
  | incomparable (left right : ValueKind)
  | noMonad (glyph : Char)
  | noDyad (glyph : Char)
  | emptyFold
  | guardNotNumber (found : ValueKind)
  -- indices
  | negativeIndex (number : Float)
  | indexPastCount (index count : Nat)
  | cellsPastLength (start stop length : Nat)
  | indexPastAxis (index axis length : Nat)
  | indexPastLength (index : Int) (length : Nat)
  | firstOfEmpty
  | firstCellOfEmpty
  -- lengths
  | elementCount (shape : Shape) (needed found : Nat)
  | reshapeOfEmpty
  | outerCount (outer : Shape) (elements : Nat)
  | frameMismatch (shape frame : Shape)
  | tooManyElements (glyph : Char) (count : Nat)
  | replicationCounts (counts cells : Nat)
  | destructuredKind (found : ValueKind) (names : Nat)
  | destructuredCells (cells names : Nat)
  -- assertions and inverses
  | assertionFailed
  | asserted (message : String)
  | noInverse (name : String)
  -- running
  | noFrame (depth : Nat)
  | unset (depth slot : Nat)
  | slotOutsideFrame (slot : Nat)
  | updatedBeforeDefined (depth slot : Nat)
  | destructuringModified
  | released
  | noReturn (block : Nat)
  | callDepthExceeded (limit : Nat)
  | malformed (position : Nat) (malformation : Malformation)
  | noBlocks
  | globalCount (expected found : Nat)

namespace Fault

def kind : Fault → FaultKind
  | unexpected _ | unexpectedEnd | nestedTooDeeply _ => .parse
  | modifiedExpression | modifiedByData _ | malformedAssignment => .parse
  | destructuredExpression | unassignable | strandedModifier _ => .parse
  | strayAssignment | strayGuard => .parse
  | modifierWithoutOperand _ | modifierWithoutRightOperand _ => .parse
  | emptyExpression | adjacentValues | dataInTrain => .parse
  | invalidDocument | documentNotObject | invalidProgram => .parse
  | alreadyDefined _ | unknownPrimitive _ => .compile
  | unknownOneModifier _ | unknownTwoModifier _ => .compile
  | guardLast | emptyTarget | repeatedTarget _ | operandTooLarge _ => .compile
  | notDefined _ => .undefinedName
  | shapeTooLarge _ | fractionalDimension _ | dimensionBelowOne _ => .shape
  | misaligned _ _ | unmergeable _ _ | unmergeableScalar _ => .shape
  | scalarSlice | tooManyAxes _ _ | cellsOfScalar | foldOfScalar | scanOfScalar => .rank
  | needsCells _ _ | pickByMany _ _ | pickByOne _ => .rank
  | numberExpected _ | characterExpected _ | fractionalIndex _ | fractional _ => .domain
  | unaddable _ _ | unsubtractable _ _ | fractionalShift _ | notACharacter _ => .domain
  | incomparableNumber | incomparable _ _ | noMonad _ | noDyad _ => .domain
  | emptyFold | guardNotNumber _ => .domain
  | negativeIndex _ | indexPastCount _ _ | cellsPastLength _ _ _ => .index
  | indexPastAxis _ _ _ | indexPastLength _ _ | firstOfEmpty | firstCellOfEmpty => .index
  | elementCount _ _ _ | reshapeOfEmpty | outerCount _ _ | frameMismatch _ _ => .length
  | tooManyElements _ _ | replicationCounts _ _ => .length
  | destructuredKind _ _ | destructuredCells _ _ => .length
  | assertionFailed | asserted _ => .assertion
  | noInverse _ => .undoUnavailable
  | noFrame _ | unset _ _ | slotOutsideFrame _ | updatedBeforeDefined _ _ => .runtime
  | destructuringModified | released | noReturn _ | callDepthExceeded _ | malformed _ _ => .runtime
  | noBlocks | globalCount _ _ => .runtime

/-- Numbers in reports have every digit in its place. -/
def numberText (number : Float) : String :=
  Decimal.Style.plain.text number

def message : Fault → String
  | unexpected found => s!"unexpected '{found}'"
  | unexpectedEnd => "unexpected end of input"
  | nestedTooDeeply limit => s!"expression too deeply nested (max depth: {limit})"
  | modifiedExpression => "only a name can be modified in place"
  | modifiedByData name => s!"{name} must be modified by a function"
  | malformedAssignment => "malformed assignment"
  | destructuredExpression => "each destructuring element must be one name"
  | unassignable => "cannot assign to this expression"
  | strandedModifier glyph => s!"modifier {glyph} cannot be stranded"
  | strayAssignment => "assignment must start a statement"
  | strayGuard => "a guard cannot appear inside an expression"
  | modifierWithoutOperand glyph => s!"modifier {glyph} has no operand"
  | modifierWithoutRightOperand glyph => s!"modifier {glyph} needs a right operand"
  | emptyExpression => "empty expression"
  | adjacentValues => "two values with no function between them"
  | dataInTrain => "a train needs a function in this position"
  | invalidDocument => "invalid JSON"
  | documentNotObject => "a program must be a JSON object with a \"stmts\" list"
  | invalidProgram => "invalid program"
  | alreadyDefined name => s!"{name} is already defined in this scope"
  | unknownPrimitive name => s!"unknown primitive {name}"
  | unknownOneModifier glyph => s!"unknown one-modifier {glyph}"
  | unknownTwoModifier glyph => s!"unknown two-modifier {glyph}"
  | guardLast => "a guard cannot be the last statement of a block"
  | emptyTarget => "cannot assign to an empty list"
  | repeatedTarget name => s!"{name} appears twice in one target"
  | operandTooLarge operand => s!"operand {operand} too large"
  | notDefined name => s!"{name} is not defined"
  | shapeTooLarge shape => s!"shape {shape.text} exceeds the limit of {sizeLimit} elements"
  | fractionalDimension dimension => s!"dimension {numberText dimension} is not an integer"
  | dimensionBelowOne dimension => s!"dimension {numberText dimension} is not positive"
  | misaligned left right => s!"shapes {left.text} and {right.text} do not align"
  | unmergeable first other => s!"cannot merge elements of shapes {first.text} and {other.text}"
  | unmergeableScalar first => s!"cannot merge a scalar with elements of shape {first.text}"
  | scalarSlice => "cannot slice a rank-0 array"
  | tooManyAxes axes rank => s!"cannot fix {axes} axes of a rank-{rank} array"
  | cellsOfScalar => "cells requires an argument of rank 1 or more"
  | foldOfScalar => "fold requires an array argument"
  | scanOfScalar => "scan requires an array argument"
  | needsCells glyph found => s!"{glyph} needs an array of rank 1 or more, got {found.label}"
  | pickByMany indices rank => s!"{indices} indices cannot pick from a rank-{rank} array"
  | pickByOne rank => s!"a single index cannot pick from a rank-{rank} array"
  | numberExpected found => s!"expected a number, got {found.label}"
  | characterExpected found => s!"expected a character, got {found.label}"
  | fractionalIndex number => s!"index {numberText number} is not an integer"
  | fractional number => s!"{numberText number} is not an integer"
  | unaddable left right => s!"cannot add {left.label} and {right.label}"
  | unsubtractable left right => s!"cannot subtract {right.label} from {left.label}"
  | fractionalShift number => s!"cannot shift a character by {numberText number}"
  | notACharacter code => s!"code point {code} is not a character"
  | incomparableNumber => "cannot compare NaN"
  | incomparable left right => s!"cannot compare {left.label} with {right.label}"
  | noMonad glyph => s!"{glyph} has no one-argument form"
  | noDyad glyph => s!"{glyph} has no two-argument form"
  | emptyFold => "fold of an empty array needs a seed"
  | guardNotNumber found => s!"guard test must be a number, got {found.label}"
  | negativeIndex number => s!"index {numberText number} is negative"
  | indexPastCount index count => s!"index {index} out of bounds for count {count}"
  | cellsPastLength start stop length =>
      s!"cells {start}..{stop} out of bounds for length {length}"
  | indexPastAxis index axis length =>
      s!"index {index} out of bounds for axis {axis} of length {length}"
  | indexPastLength index length => s!"index {index} out of bounds for length {length}"
  | firstOfEmpty => "first of an empty array"
  | firstCellOfEmpty => "first cell of an empty array"
  | elementCount shape needed found =>
      s!"shape {shape.text} needs {needed} elements, got {found}"
  | reshapeOfEmpty => "cannot reshape the empty array"
  | outerCount outer elements => s!"outer shape {outer.text} does not hold {elements} elements"
  | frameMismatch shape frame =>
      s!"left argument shape {shape.text} does not match the frame {frame.text}"
  | tooManyElements glyph count =>
      s!"{glyph} would build {count} elements, more than the limit of {sizeLimit}"
  | replicationCounts counts cells => s!"{counts} counts for {cells} cells"
  | destructuredKind found names => s!"cannot destructure a {found.label} into {names} names"
  | destructuredCells cells names => s!"cannot destructure {cells} cells into {names} names"
  | assertionFailed => "assertion failed"
  | asserted message => message
  | noInverse name => s!"{name} has no declared inverse"
  | noFrame depth => s!"no frame {depth} levels out"
  | unset depth slot => s!"variable {depth}:{slot} read before it was set"
  | slotOutsideFrame slot => s!"slot {slot} outside its frame"
  | updatedBeforeDefined depth slot => s!"variable {depth}:{slot} updated before it was defined"
  | destructuringModified => "cannot modify a destructuring target"
  | released => "block function called after release"
  | noReturn block => s!"block {block} has no return"
  | callDepthExceeded limit => s!"call depth limit exceeded (max: {limit})"
  | malformed position malformation => s!"malformed bytecode at {position}: {malformation.label}"
  | noBlocks => "program has no blocks"
  | globalCount expected found => s!"program expects {expected} initial globals, got {found}"

end Fault

end PointFree
