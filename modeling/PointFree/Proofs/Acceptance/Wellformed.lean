import PointFree.Proofs.Meaning.Evaluation

/-!
Contract: which blocks are programs.

The rules are read off the tree, without scopes or instructions. Each of them speaks
of the block and of every function literal in it, however deep it is nested. A literal
is known by its body and by the blocks around it, because a name may be declared by any
statement of a block around it but only by an earlier one of its own.
-/

namespace PointFree

/-! ### Parts of a tree -/

mutual

/-- The expression and its operands, theirs included. Function literals are not looked
into. -/
def Expression.parts : Expression → List Expression
  | .list items => .list items :: Expression.partsOfAll items
  | .call function right => .call function right :: (right.parts ++ function.parts)
  | .callBoth function left right =>
      .callBoth function left right :: (right.parts ++ function.parts ++ left.parts)
  | .modifyOne glyph operand => .modifyOne glyph operand :: operand.parts
  | .modifyTwo glyph left right => .modifyTwo glyph left right :: (right.parts ++ left.parts)
  | .atop left right => .atop left right :: (right.parts ++ left.parts)
  | .fork left middle right =>
      .fork left middle right :: (right.parts ++ middle.parts ++ left.parts)
  | leaf => [leaf]
termination_by structural expression => expression

def Expression.partsOfAll : List Expression → List Expression
  | [] => []
  | item :: items => item.parts ++ Expression.partsOfAll items
termination_by structural items => items

end

namespace Clause

def operands : Clause → List Expression
  | .expression result => [result]
  | .define _ value => [value]
  | .assign _ value => [value]
  | .modify _ function none => [function]
  | .modify _ function (some argument) => [argument, function]
  | .guard test fallback => [test, fallback]

/-- Every expression in the statement that stands in no function literal. -/
def parts (clause : Clause) : List Expression :=
  clause.operands.flatMap Expression.parts

/-- What the statement defines or assigns. -/
def target? : Clause → Option Target
  | .define target _ => some target
  | .assign target _ => some target
  | _ => none

/-- The names of variables that the statement gives new values. -/
def updates : Clause → List String
  | .assign target _ => target.names
  | .modify name _ _ => [name]
  | _ => []

def isGuard : Clause → Bool
  | .guard _ _ => true
  | _ => false

/-- The name is referenced, assigned or modified. -/
def Mentions (clause : Clause) (name : String) : Prop :=
  .name name ∈ clause.parts ∨ name ∈ clause.updates

end Clause

/-- A target and the targets in it. -/
inductive Target.Contains : Target → Target → Prop where
  | self (target : Target) : Contains target target
  | inside {targets : List Target} {target part : Target} :
      target ∈ targets → Contains target part → Contains (.list targets) part

/-- A body stands in the whole, with the given blocks around it, the innermost first. -/
inductive Block.Nests (whole : Block) : (around : List Block) → (body : Block) → Prop where
  | whole : Nests whole [] whole
  | literal {around : List Block} {body inner : Block} {statement : Statement} :
      Nests whole around body → statement ∈ body.statements →
      .block inner ∈ statement.clause.parts → Nests whole (body :: around) inner

/-- The names declared by statements, in order. -/
def Statement.declaredBy (statements : List Statement) : List String :=
  statements.flatMap fun statement => statement.clause.declares

/-! ### Rules -/

namespace Block

/-- Every name that is mentioned has been declared by an earlier statement, is declared by
some statement of a block around, or comes from outside. -/
def IsBound (whole : Block) (externals : List String) : Prop :=
  ∀ around body, whole.Nests around body → ∀ earlier statement later,
    body.statements = earlier ++ statement :: later → ∀ name, statement.clause.Mentions name →
    name ∈ Statement.declaredBy earlier ∨ (∃ block ∈ around, name ∈ block.declares) ∨
      name ∈ externals

/-- No block declares a name twice. What comes from outside counts as declared by the whole. -/
def IsSingular (whole : Block) (externals : List String) : Prop :=
  (externals ++ whole.declares).Nodup ∧
    ∀ around body, whole.Nests around body → body.declares.Nodup

/-- No target has an empty list in it or a name twice. -/
def IsTargeted (whole : Block) : Prop :=
  ∀ around body, whole.Nests around body → ∀ statement ∈ body.statements,
    ∀ target ∈ statement.clause.target?, ¬target.Contains (.list []) ∧ target.names.Nodup

/-- Every guard has a statement after it. -/
def IsContinued (whole : Block) : Prop :=
  ∀ around body, whole.Nests around body → ∀ statement ∈ body.statements.getLast?,
    statement.clause.isGuard = false

/-- Primitives are words of the vocabulary, and glyphs of modifiers have a modifier. -/
structure IsWorded (whole : Block) (vocabulary : Vocabulary) : Prop where
  primitive : ∀ around body, whole.Nests around body → ∀ statement ∈ body.statements, ∀ word,
    .primitive word ∈ statement.clause.parts → ∃ value, (word, value) ∈ vocabulary.entries
  one : ∀ around body, whole.Nests around body → ∀ statement ∈ body.statements,
    ∀ glyph operand, .modifyOne glyph operand ∈ statement.clause.parts →
      ∃ modifier : OneModifier, modifier.glyph = glyph
  two : ∀ around body, whole.Nests around body → ∀ statement ∈ body.statements,
    ∀ glyph left right, .modifyTwo glyph left right ∈ statement.clause.parts →
      ∃ modifier : TwoModifier, modifier.glyph = glyph

/-- Everything but that names are declared where they are mentioned. -/
structure IsSound (whole : Block) (vocabulary : Vocabulary) (externals : List String) : Prop where
  singular : whole.IsSingular externals
  targeted : whole.IsTargeted
  continued : whole.IsContinued
  worded : whole.IsWorded vocabulary

def IsWellFormed (whole : Block) (vocabulary : Vocabulary) (externals : List String) : Prop :=
  whole.IsBound externals ∧ whole.IsSound vocabulary externals

end Block

end PointFree
