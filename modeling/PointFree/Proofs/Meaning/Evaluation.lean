import PointFree.Routine.Execution
import PointFree.Run
import PointFree.Tree
import PointFree.Vocabulary

/-!
Contract: what a tree means.

Every activation of a block has an environment. It knows the variables of the block
by their names and is linked to the environment in which the block's literal was
met. A name means the nearest block that declares it; within a block itself only the
declarations of earlier statements count.

The evaluator follows the tree. Operands are computed from the right: the right
argument, the function, the left argument; the parts of a train from the right as
well; of a modification the argument, the function and then the current value. A
guard whose test is zero returns its fallback at once. A statement's failure takes
the statement's span unless it has one already, and a call of a block that was made
here evaluates its body in a new environment.
-/

namespace PointFree

structure Environment where
  /-- The function itself and its arguments. -/
  this : Option Value
  right : Option Value
  left : Option Value
  /-- Every name that the block declares, with its value once it has one. -/
  bindings : List (String × Option Value)
  /-- The environment of the definition site. -/
  parent : Option Nat

namespace Environment

def names (environment : Environment) : List String :=
  environment.bindings.map Prod.fst

/-- The value of a name that is declared and has one. -/
def value? (environment : Environment) (name : String) : Option Value :=
  (environment.bindings.lookup name).join

def implicit? (environment : Environment) : Implicit → Option Value
  | .this => environment.this
  | .right => environment.right
  | .left => environment.left

def bind (environment : Environment) (name : String) (value : Value) : Environment :=
  { environment with
    bindings := environment.bindings.map fun binding =>
      if binding.1 = name then (name, some value) else binding }

end Environment

/-- A function literal as it was met: its body, the words it may use and the deepest
nesting of calls in which it may still be entered. -/
structure Literal where
  body : Block
  vocabulary : Vocabulary
  limit : Nat

/-- What an evaluation remembers. -/
structure Lexical where
  environments : Array Environment
  literals : Array Literal

namespace Lexical

/-- The nearest environment that declares a name, from a given one outward. -/
def owner? (heap : Lexical) (name : String) (environment : Nat) : Option Nat :=
  match heap.environments[environment]? with
  | none => none
  | some found =>
      if name ∈ found.names then some environment
      else
        match found.parent with
        | none => none
        | some parent => if parent < environment then heap.owner? name parent else none
termination_by environment

/-- The environment that a name means in a block whose earlier statements have
declared the given names. -/
def visible? (heap : Lexical) (declared : List String) (environment : Nat) (name : String) :
    Option Nat :=
  if name ∈ declared then some environment
  else heap.environments[environment]?.bind fun found => found.parent.bind (heap.owner? name)

def value? (heap : Lexical) (environment : Nat) (name : String) : Option Value :=
  heap.environments[environment]?.bind fun found => found.value? name

def implicit? (heap : Lexical) (environment : Nat) (variant : Implicit) : Option Value :=
  heap.environments[environment]?.bind fun found => found.implicit? variant

def bind (heap : Lexical) (environment : Nat) (name : String) (value : Value) : Lexical :=
  { heap with environments := heap.environments.modify environment fun found =>
      found.bind name value }

/-! ### Actions -/

def newEnvironment (environment : Environment) : Action Lexical Nat :=
  fun _ memory =>
    (.ok memory.heap.environments.size,
      { memory with heap.environments := memory.heap.environments.push environment })

/-- Remembers a literal, and says under which number. -/
def note (literal : Literal) : Action Lexical Nat :=
  fun _ memory =>
    (.ok memory.heap.literals.size,
      { memory with heap.literals := memory.heap.literals.push literal })

def literal (number : Nat) : Action Lexical Literal := do
  let memory ← get
  match memory.heap.literals[number]? with
  | some found => return found
  | none => Action.refuse .released

/-- Variables have no addresses here, so a report that one has no value names none. -/
def unset {α : Type} : Action Lexical α :=
  Action.refuse (.unset 0 0)

def readImplicit (environment : Nat) (variant : Implicit) : Action Lexical Value := do
  let memory ← get
  match memory.heap.implicit? environment variant with
  | some value => return value
  | none => unset

def visible (declared : List String) (environment : Nat) (name : String) :
    Action Lexical Nat := do
  let memory ← get
  match memory.heap.visible? declared environment name with
  | some owner => return owner
  | none => Action.refuse (.notDefined name)

def read (declared : List String) (environment : Nat) (name : String) : Action Lexical Value := do
  let owner ← visible declared environment name
  let memory ← get
  match memory.heap.value? owner name with
  | some value => return value
  | none => unset

/-- Gives a name a value, which it must have had before unless it is `fresh`. -/
def write (fresh : Bool) (declared : List String) (environment : Nat) (name : String)
    (value : Value) : Action Lexical Unit := do
  let owner ← visible declared environment name
  let memory ← get
  if !fresh && (memory.heap.value? owner name).isNone then
    Action.refuse (.updatedBeforeDefined 0 0)
  else set { memory with heap := memory.heap.bind owner name value }

end Lexical

end PointFree

namespace PointFree

/-- The names that a statement declares. -/
def Clause.declares : Clause → List String
  | .define target _ => target.names
  | _ => []

/-- All names that a block declares, in order. -/
def Block.declares (block : Block) : List String :=
  block.statements.flatMap fun statement => statement.clause.declares

/-- Where an expression stands. -/
structure Standpoint where
  environment : Nat
  /-- The names that earlier statements of the block have declared. -/
  declared : List String
  vocabulary : Vocabulary
  limit : Nat

namespace Standpoint

def read (standpoint : Standpoint) (name : String) : Action Lexical Value :=
  Lexical.read standpoint.declared standpoint.environment name

def write (standpoint : Standpoint) (fresh : Bool) (name : String) (value : Value) :
    Action Lexical Unit :=
  Lexical.write fresh standpoint.declared standpoint.environment name value

/-- The standpoint after a statement. -/
def after (standpoint : Standpoint) (clause : Clause) : Standpoint :=
  { standpoint with declared := standpoint.declared ++ clause.declares }

end Standpoint

mutual

def Expression.evaluate (standpoint : Standpoint) : Expression → Action Lexical Value
  | .number amount => return .number amount
  | .character letter => return .character letter
  | .string text => return .ofString text
  | .name word => standpoint.read word
  | .primitive word =>
      match standpoint.vocabulary.value? word with
      | some value => return value
      | none => Action.refuse (.unknownPrimitive word)
  | .implicit variant => Lexical.readImplicit standpoint.environment variant
  | .list items => do
      let values ← Expression.evaluateAll standpoint items
      return .list values.toArray
  | .call function right => do
      let argument ← right.evaluate standpoint
      let operator ← function.evaluate standpoint
      operator.call argument none
  | .callBoth function left right => do
      let argument ← right.evaluate standpoint
      let operator ← function.evaluate standpoint
      let other ← left.evaluate standpoint
      operator.call argument (some other)
  | .modifyOne glyph operand =>
      match OneModifier.ofGlyph? glyph with
      | none => Action.refuse (.unknownOneModifier glyph)
      | some modifier => do
          let value ← operand.evaluate standpoint
          let function ← modifier.apply value
          return .function function
  | .modifyTwo glyph left right =>
      match TwoModifier.ofGlyph? glyph with
      | none => Action.refuse (.unknownTwoModifier glyph)
      | some modifier => do
          let second ← right.evaluate standpoint
          let first ← left.evaluate standpoint
          let function ← modifier.apply first second
          return .function function
  | .atop left right => do
      let rightOperand ← right.evaluate standpoint
      let inner ← rightOperand.toFunction
      let leftOperand ← left.evaluate standpoint
      let outer ← leftOperand.toFunction
      let function ← Action.make (.atop outer inner)
      return .function function
  | .fork left middle right => do
      let rightOperand ← right.evaluate standpoint
      let after ← rightOperand.toFunction
      let middleOperand ← middle.evaluate standpoint
      let between ← middleOperand.toFunction
      let leftOperand ← left.evaluate standpoint
      let before ← leftOperand.toFunction
      let function ← Action.make (.fork before between after)
      return .function function
  | .block body => do
      let number ← Lexical.note ⟨body, standpoint.vocabulary, standpoint.limit⟩
      let function ← Action.make (.block number 0 standpoint.environment)
      return .function function
termination_by structural expression => expression

def Expression.evaluateAll (standpoint : Standpoint) :
    List Expression → Action Lexical (List Value)
  | [] => return []
  | item :: items => do
      let value ← item.evaluate standpoint
      let values ← Expression.evaluateAll standpoint items
      return value :: values
termination_by structural items => items

end

mutual

/-- Stores a value under the names of a target, taken apart into cells where the
target is a list. -/
def Target.assign (standpoint : Standpoint) (fresh : Bool) :
    Target → Value → Action Lexical Unit
  | .name word, value => standpoint.write fresh word value
  | .list targets, value =>
      match value with
      | .array items => do
          let cells ← items.majorCells
          if cells.size = targets.length then
            Target.assignAll standpoint fresh targets cells.toList
          else Action.refuse (.destructuredCells cells.size targets.length)
      | other => Action.refuse (.destructuredKind other.kind targets.length)
termination_by structural target => target

def Target.assignAll (standpoint : Standpoint) (fresh : Bool) :
    List Target → List Value → Action Lexical Unit
  | target :: targets, value :: values => do
      target.assign standpoint fresh value
      Target.assignAll standpoint fresh targets values
  | _, _ => return ()
termination_by structural targets => targets

end

/-- The value of a statement that is no guard. -/
def Clause.evaluate (standpoint : Standpoint) : Clause → Action Lexical Value
  | .expression result => result.evaluate standpoint
  | .define target value => do
      let computed ← value.evaluate standpoint
      target.assign (standpoint.after (.define target value)) true computed
      return computed
  | .assign target value => do
      let computed ← value.evaluate standpoint
      target.assign standpoint false computed
      return computed
  | .modify name function none => do
      let operator ← function.evaluate standpoint
      let current ← standpoint.read name
      let computed ← operator.call current none
      standpoint.write false name computed
      return computed
  | .modify name function (some argument) => do
      let operand ← argument.evaluate standpoint
      let operator ← function.evaluate standpoint
      let current ← standpoint.read name
      let computed ← operator.call operand (some current)
      standpoint.write false name computed
      return computed
  | .guard _ _ => Action.refuse .guardLast

/-- The value of the last statement, or of the fallback of a guard before it. Without
statements it is the empty list. -/
def Statement.evaluateAll (standpoint : Standpoint) : List Statement → Action Lexical Value
  | [] => return .nil
  | [statement] => Action.located statement.span (statement.clause.evaluate standpoint)
  | .mk (.guard test fallback) span :: rest => do
      let holds ← Action.located span do
        let tested ← test.evaluate standpoint
        guardNumber tested
      if holds == 0.0 then Action.located span (fallback.evaluate standpoint)
      else Statement.evaluateAll standpoint rest
  | statement :: rest => do
      let _ ← Action.located statement.span (statement.clause.evaluate standpoint)
      Statement.evaluateAll (standpoint.after statement.clause) rest

/-- Evaluates a literal's body in an environment of its own, linked to the one in
which the literal was met. -/
instance : Blocks Lexical where
  enter number _ environment this right left := do
    let literal ← Lexical.literal number
    Action.nested literal.limit do
      let bindings := literal.body.declares.map (·, none)
      let inner ← Lexical.newEnvironment ⟨some (.function this), some right, left, bindings,
        some environment⟩
      Statement.evaluateAll ⟨inner, [], literal.vocabulary, literal.limit⟩
        literal.body.statements

theorem Lexical.enter_eq (number block environment : Nat) (this : Function) (right : Value)
    (left : Option Value) :
    (Blocks.enter number block environment this right left : Action Lexical Value) = (do
      let literal ← Lexical.literal number
      Action.nested literal.limit do
        let bindings := literal.body.declares.map (·, none)
        let inner ← Lexical.newEnvironment ⟨some (.function this), some right, left, bindings,
          some environment⟩
        Statement.evaluateAll ⟨inner, [], literal.vocabulary, literal.limit⟩
          literal.body.statements) :=
  rfl

/-- The value of a block as a whole program, and its environment. `externals` names
the values that it is given. -/
def Block.evaluate (block : Block) (vocabulary : Vocabulary) (externals : List String)
    (limit : Nat) (globals : Array Value) : Action Lexical (Value × Nat) := do
  if globals.size ≠ externals.length then
    Action.refuse (.globalCount externals.length globals.size)
  else
    let given := externals.zip (globals.toList.map some)
    let environment ← Lexical.newEnvironment ⟨none, none, none,
      given ++ block.declares.map (·, none), none⟩
    let value ← Statement.evaluateAll ⟨environment, externals, vocabulary, limit⟩ block.statements
    return (value, environment)

end PointFree
