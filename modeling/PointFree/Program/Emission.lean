import PointFree.Program.Instruction
import PointFree.Program.Scope
import PointFree.Tree
import PointFree.Vocabulary

/-!
Contract: the instructions of one block.

A block is turned into instructions on its own. What depends on the program
around it is left open: literal values have no place in the constant pool yet,
and function literals no number. Their bodies are not looked into, so that a
body sees every name of the blocks around it and a statement only the names of
the statements before it.
-/

namespace PointFree

/-- An instruction, or one whose operand is not known yet. -/
inductive Emitted where
  | instruction (instruction : Instruction)
  | literal (value : Value)
  | closure (body : Block)

/-- What the instructions of a statement may refer to. -/
structure Surrounding where
  vocabulary : Vocabulary
  /-- The innermost scope comes first. -/
  scopes : List Scope

def Surrounding.address (surrounding : Surrounding) (name : String) : Outcome (Nat × Nat) :=
  match Scope.resolve? name surrounding.scopes with
  | some address => .ok address
  | none => refuse (.notDefined name)

def Surrounding.constant (surrounding : Surrounding) (name : String) : Outcome Nat :=
  match surrounding.vocabulary.lookup name with
  | some constant => .ok constant
  | none => refuse (.unknownPrimitive name)

mutual

def Expression.emit (surrounding : Surrounding) : Expression → Outcome (List Emitted)
  | .number amount => .ok [.literal (.number amount)]
  | .character letter => .ok [.literal (.character letter)]
  | .string text => .ok [.literal (.ofString text)]
  | .name word => do
      let address ← surrounding.address word
      return [.instruction (.load address.1 address.2)]
  | .primitive word => do
      let constant ← surrounding.constant word
      return [.instruction (.push constant)]
  | .implicit variant => .ok [.instruction (.load 0 variant.slot)]
  | .list items => do
      let emitted ← Expression.emitAll surrounding items
      return emitted ++ [.instruction (.list items.length)]
  | .call function right => do
      let argument ← right.emit surrounding
      let operator ← function.emit surrounding
      return argument ++ operator ++ [.instruction .call]
  | .callBoth function left right => do
      let second ← right.emit surrounding
      let operator ← function.emit surrounding
      let first ← left.emit surrounding
      return second ++ operator ++ first ++ [.instruction .callBoth]
  | .modifyOne glyph operand =>
      match OneModifier.ofGlyph? glyph with
      | none => refuse (.unknownOneModifier glyph)
      | some modifier => do
          let emitted ← operand.emit surrounding
          return emitted ++ [.instruction (.modifyOne modifier.code)]
  | .modifyTwo glyph left right =>
      match TwoModifier.ofGlyph? glyph with
      | none => refuse (.unknownTwoModifier glyph)
      | some modifier => do
          let second ← right.emit surrounding
          let first ← left.emit surrounding
          return second ++ first ++ [.instruction (.modifyTwo modifier.code)]
  | .atop left right => do
      let second ← right.emit surrounding
      let first ← left.emit surrounding
      return second ++ first ++ [.instruction .atop]
  | .fork left middle right => do
      let third ← right.emit surrounding
      let second ← middle.emit surrounding
      let first ← left.emit surrounding
      return third ++ second ++ first ++ [.instruction .fork]
  | .block body => .ok [.closure body]
termination_by structural expression => expression

def Expression.emitAll (surrounding : Surrounding) :
    List Expression → Outcome (List Emitted)
  | [] => .ok []
  | item :: items => do
      let first ← item.emit surrounding
      let rest ← Expression.emitAll surrounding items
      return first ++ rest
termination_by structural items => items

end

mutual

def Target.emit (surrounding : Surrounding) : Target → Outcome (List Emitted)
  | .name word => do
      let address ← surrounding.address word
      return [.instruction (.place address.1 address.2)]
  | .list targets => do
      let emitted ← Target.emitAll surrounding targets
      return emitted ++ [.instruction (.places targets.length)]
termination_by structural target => target

def Target.emitAll (surrounding : Surrounding) : List Target → Outcome (List Emitted)
  | [] => .ok []
  | target :: targets => do
      let first ← target.emit surrounding
      let rest ← Target.emitAll surrounding targets
      return first ++ rest
termination_by structural targets => targets

end

/-- The first name that was there before. -/
def repeated? : (before : List String) → List String → Option String
  | _, [] => none
  | before, name :: names =>
      if name ∈ before then some name else repeated? (before ++ [name]) names

/-- No empty lists and no name twice. -/
def Target.check (target : Target) : Outcome Unit :=
  if !target.isFilled then refuse .emptyTarget
  else
    match repeated? [] target.names with
    | some word => refuse (.repeatedTarget word)
    | none => .ok ()

/-- What follows the value of a statement. -/
def closing (last : Bool) : Emitted :=
  .instruction (if last then .finish else .discard)

/-- The instructions of a statement, and the scope after it. -/
def Clause.emit (vocabulary : Vocabulary) (outer : List Scope) (scope : Scope) (last : Bool) :
    Clause → Outcome (List Emitted × Scope)
  | .expression result => do
      let emitted ← result.emit ⟨vocabulary, scope :: outer⟩
      return (emitted ++ [closing last], scope)
  | .define target value => do
      target.check
      let emitted ← value.emit ⟨vocabulary, scope :: outer⟩
      let extended ← scope.declareAll target.names
      let places ← target.emit ⟨vocabulary, extended :: outer⟩
      return (emitted ++ places ++ [.instruction .define, closing last], extended)
  | .assign target value => do
      target.check
      let emitted ← value.emit ⟨vocabulary, scope :: outer⟩
      let places ← target.emit ⟨vocabulary, scope :: outer⟩
      return (emitted ++ places ++ [.instruction .assign, closing last], scope)
  | .modify name function none => do
      let operator ← function.emit ⟨vocabulary, scope :: outer⟩
      let places ← (Target.name name).emit ⟨vocabulary, scope :: outer⟩
      return (operator ++ places ++ [.instruction .update, closing last], scope)
  | .modify name function (some argument) => do
      let operand ← argument.emit ⟨vocabulary, scope :: outer⟩
      let operator ← function.emit ⟨vocabulary, scope :: outer⟩
      let places ← (Target.name name).emit ⟨vocabulary, scope :: outer⟩
      return (operand ++ operator ++ places ++ [.instruction .updateWith, closing last], scope)
  | .guard test fallback =>
      if last then refuse .guardLast
      else do
        let tested ← test.emit ⟨vocabulary, scope :: outer⟩
        let otherwise ← fallback.emit ⟨vocabulary, scope :: outer⟩
        return (tested ++ [.instruction .test] ++ otherwise ++ [.instruction .fallback], scope)

/-- What has been emitted, with the statement it belongs to. -/
abbrev Located := Emitted × Option Span

/-- The instructions of statements, and the scope after them. -/
def Statement.emitAll (vocabulary : Vocabulary) (outer : List Scope) :
    Scope → List Statement → Outcome (List Located × Scope)
  | scope, [] => .ok ([], scope)
  | scope, statement :: rest => do
      let first ← Outcome.within statement.span
        (statement.clause.emit vocabulary outer scope rest.isEmpty)
      let others ← Statement.emitAll vocabulary outer first.2 rest
      return (first.1.map (·, statement.span) ++ others.1, others.2)

/-- The instructions of a block whose scope begins with the given names, and
its whole scope. A block without statements returns the empty list. -/
def Block.emit (vocabulary : Vocabulary) (outer : List Scope) (scope : Scope) (block : Block) :
    Outcome (List Located × Scope) :=
  if block.statements.isEmpty then
    .ok ([(.literal .nil, none), (.instruction .finish, none)], scope)
  else Statement.emitAll vocabulary outer scope block.statements

end PointFree
