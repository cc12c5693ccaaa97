import PointFree.Collect
import PointFree.Decimal.Dyadic
import PointFree.Decimal.Notation
import PointFree.Decimal.Reading
import PointFree.Decimal.Shortest
import PointFree.Failure
import PointFree.Fault
import PointFree.Function.Call
import PointFree.Function.Making
import PointFree.Function.Name
import PointFree.Function.Operation
import PointFree.Json
import PointFree.Json.Reading
import PointFree.Json.Token
import PointFree.Machine
import PointFree.Main
import PointFree.Modifier
import PointFree.Primitive
import PointFree.Primitive.Cellwise
import PointFree.Primitive.Forms
import PointFree.Primitive.Scalar
import PointFree.Program
import PointFree.Program.Assembly
import PointFree.Program.Emission
import PointFree.Program.Instruction
import PointFree.Program.Listing
import PointFree.Program.Loading
import PointFree.Program.Scope
import PointFree.Proofs.Acceptance
import PointFree.Proofs.Acceptance.Capacity
import PointFree.Proofs.Acceptance.Queue
import PointFree.Proofs.Acceptance.Refusal
import PointFree.Proofs.Acceptance.Wellformed
import PointFree.Proofs.Addressing
import PointFree.Proofs.Aligning
import PointFree.Proofs.Allotment
import PointFree.Proofs.Allotment.References
import PointFree.Proofs.Arrangement
import PointFree.Proofs.Arrangement.Cells
import PointFree.Proofs.Arrangement.Cutting
import PointFree.Proofs.Arrangement.Picking
import PointFree.Proofs.Arrangement.Reordering
import PointFree.Proofs.Arrangement.Replication
import PointFree.Proofs.Arrangement.Reshaping
import PointFree.Proofs.Arrangement.Rotation
import PointFree.Proofs.Arrangement.Selection
import PointFree.Proofs.Broadcasting
import PointFree.Proofs.Comparison
import PointFree.Proofs.Comparison.Limits
import PointFree.Proofs.Comparison.Settled
import PointFree.Proofs.Compilation.Assembly
import PointFree.Proofs.Compilation.Constants
import PointFree.Proofs.Compilation.Emission
import PointFree.Proofs.Compilation.Layout
import PointFree.Proofs.Compilation.Loading
import PointFree.Proofs.Compilation.Lowering
import PointFree.Proofs.Compilation.Placement
import PointFree.Proofs.Compilation.Replay
import PointFree.Proofs.Constancy
import PointFree.Proofs.Conversation
import PointFree.Proofs.Conversation.Bindings
import PointFree.Proofs.Conversation.Omission
import PointFree.Proofs.Conversation.Places
import PointFree.Proofs.Conversation.Splitting
import PointFree.Proofs.Correspondence
import PointFree.Proofs.Correspondence.Action
import PointFree.Proofs.Correspondence.Anonymous
import PointFree.Proofs.Correspondence.Cell
import PointFree.Proofs.Correspondence.Cellwise
import PointFree.Proofs.Correspondence.Function
import PointFree.Proofs.Correspondence.Identity
import PointFree.Proofs.Correspondence.Loop
import PointFree.Proofs.Correspondence.Nested
import PointFree.Proofs.Correspondence.Operation
import PointFree.Proofs.Correspondence.Pervasion
import PointFree.Proofs.Correspondence.Routine
import PointFree.Proofs.Correspondence.Settled
import PointFree.Proofs.Destructuring
import PointFree.Proofs.Equality
import PointFree.Proofs.Folding
import PointFree.Proofs.Framing
import PointFree.Proofs.Guarding
import PointFree.Proofs.Guarding.Loading
import PointFree.Proofs.Heap
import PointFree.Proofs.Interchange
import PointFree.Proofs.Interchange.Nulls
import PointFree.Proofs.Joining.Acceptance
import PointFree.Proofs.Joining.Reading
import PointFree.Proofs.Joining.Separation
import PointFree.Proofs.Legibility
import PointFree.Proofs.Legibility.Routine
import PointFree.Proofs.Legibility.Running
import PointFree.Proofs.Likeness
import PointFree.Proofs.Likeness.Array
import PointFree.Proofs.Likeness.Cellwise
import PointFree.Proofs.Likeness.Nested
import PointFree.Proofs.Likeness.Pervasion
import PointFree.Proofs.Likeness.Primitive
import PointFree.Proofs.Meaning.Evaluation
import PointFree.Proofs.Meaning.Preservation
import PointFree.Proofs.Meaning.Running
import PointFree.Proofs.Meaning.Variables
import PointFree.Proofs.Measuring
import PointFree.Proofs.Merging
import PointFree.Proofs.Merging.Boxing
import PointFree.Proofs.Merging.Inverse
import PointFree.Proofs.Nesting
import PointFree.Proofs.Pervasion
import PointFree.Proofs.Pervasion.Commutation
import PointFree.Proofs.Pervasion.Redundancy
import PointFree.Proofs.Phrasing
import PointFree.Proofs.Phrasing.Grouping
import PointFree.Proofs.Picturing
import PointFree.Proofs.Placing
import PointFree.Proofs.Placing.Compiling
import PointFree.Proofs.Placing.Reading
import PointFree.Proofs.Pointing
import PointFree.Proofs.Position
import PointFree.Proofs.Ranking
import PointFree.Proofs.Ranking.Composition
import PointFree.Proofs.Ranking.Frames
import PointFree.Proofs.Registering
import PointFree.Proofs.Registering.Recompiling
import PointFree.Proofs.Renumbering
import PointFree.Proofs.Restoring
import PointFree.Proofs.Restoring.Data
import PointFree.Proofs.Restoring.Evaluation
import PointFree.Proofs.Restoring.Numerals
import PointFree.Proofs.Restoring.Reading
import PointFree.Proofs.Restoring.Trees
import PointFree.Proofs.Restoring.Whole
import PointFree.Proofs.Settling
import PointFree.Proofs.Shifting
import PointFree.Proofs.Shifting.Integers
import PointFree.Proofs.Shifting.Portraying
import PointFree.Proofs.Shifting.Spreading
import PointFree.Proofs.Spans
import PointFree.Proofs.Spans.Accepting
import PointFree.Proofs.Spans.Bodies
import PointFree.Proofs.Spans.Faithful
import PointFree.Proofs.Spans.Passage
import PointFree.Proofs.Spans.Roles
import PointFree.Proofs.Spans.Scanning
import PointFree.Proofs.Spans.Shifting
import PointFree.Proofs.Splitting.Evaluation
import PointFree.Proofs.Splitting.Lines
import PointFree.Proofs.Splitting.Steps
import PointFree.Proofs.Splitting.World
import PointFree.Proofs.Stepping.Agreement
import PointFree.Proofs.Stepping.Code
import PointFree.Proofs.Stepping.Frames
import PointFree.Proofs.Stepping.Order
import PointFree.Proofs.Stepping.Running
import PointFree.Proofs.Surviving
import PointFree.Proofs.Tandem
import PointFree.Proofs.Traversal
import PointFree.Proofs.Undoing
import PointFree.Proofs.Undoing.Combinators
import PointFree.Proofs.Undoing.Declared
import PointFree.Proofs.Undoing.Elements
import PointFree.Proofs.Views
import PointFree.Proofs.Views.Composition
import PointFree.Proofs.Views.Laziness
import PointFree.Proofs.Views.Making
import PointFree.Proofs.Views.Materializing
import PointFree.Proofs.Views.Selection
import PointFree.Routine
import PointFree.Routine.Execution
import PointFree.Run
import PointFree.Session
import PointFree.Shape
import PointFree.ShapedArray.Cells
import PointFree.ShapedArray.Reading
import PointFree.ShapedArray.Views
import PointFree.Source
import PointFree.Store
import PointFree.Surface.Atom
import PointFree.Surface.Grouping
import PointFree.Surface.Reading
import PointFree.Surface.Token
import PointFree.Text.Blank
import PointFree.Text.CodePoint
import PointFree.Text.Escape
import PointFree.Text.Letter
import PointFree.Text.Lowercase
import PointFree.Tree
import PointFree.Tree.Document
import PointFree.Value
import PointFree.Value.Depth
import PointFree.Value.Equality
import PointFree.Value.Measure
import PointFree.Value.Pervasion
import PointFree.Value.Text
import PointFree.Vocabulary
