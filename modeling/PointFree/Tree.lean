import PointFree.Modifier
import PointFree.Source

/-!
Contract: programs as trees.

A block is a sequence of statements: the whole program, or the body of a
function literal. Roles are settled here: whether a part is a call, a train or
a modification no longer depends on how its names are spelled. Operands are
named by their side.
-/

namespace PointFree

/-- The names that every block has without defining them. -/
inductive Implicit where
  | this
  | right
  | left
deriving DecidableEq, Repr

/-- Slot of the frame that holds it. -/
def Implicit.slot : Implicit → Nat
  | .this => 0
  | .right => 1
  | .left => 2

/-- What an assignment binds: one name, or one name for each cell. -/
inductive Target where
  | name (name : String)
  | list (targets : List Target)
deriving Repr

mutual

inductive Expression where
  | number (number : Float)
  | character (letter : Char)
  | string (text : String)
  | name (name : String)
  | primitive (name : String)
  | implicit (implicit : Implicit)
  | list (items : List Expression)
  | call (function right : Expression)
  | callBoth (function left right : Expression)
  | modifyOne (glyph : Char) (operand : Expression)
  | modifyTwo (glyph : Char) (left right : Expression)
  | atop (left right : Expression)
  | fork (left middle right : Expression)
  | block (body : Block)

/-- What a statement does. -/
inductive Clause where
  | expression (expression : Expression)
  | define (target : Target) (value : Expression)
  | assign (target : Target) (value : Expression)
  | modify (name : String) (function : Expression) (argument : Option Expression)
  | guard (test fallback : Expression)

inductive Statement where
  | mk (clause : Clause) (span : Option Span)

inductive Block where
  | mk (statements : List Statement)

end

def Statement.clause : Statement → Clause
  | .mk clause _ => clause

def Statement.span : Statement → Option Span
  | .mk _ span => span

def Block.statements : Block → List Statement
  | .mk statements => statements

mutual

/-- The names that a target binds, in order. -/
def Target.names : Target → List String
  | .name word => [word]
  | .list targets => Target.namesOfAll targets
termination_by structural target => target

def Target.namesOfAll : List Target → List String
  | [] => []
  | target :: targets => target.names ++ Target.namesOfAll targets
termination_by structural targets => targets

end

mutual

/-- No list in the target is empty. -/
def Target.isFilled : Target → Bool
  | .name _ => true
  | .list targets => !targets.isEmpty && Target.areFilled targets
termination_by structural target => target

def Target.areFilled : List Target → Bool
  | [] => true
  | target :: targets => target.isFilled && Target.areFilled targets
termination_by structural targets => targets

end

mutual

/-- Number of function literals, nested ones included. -/
def Expression.literals : Expression → Nat
  | .list items => Expression.literalsOfAll items
  | .call function right => function.literals + right.literals
  | .callBoth function left right => function.literals + left.literals + right.literals
  | .modifyOne _ operand => operand.literals
  | .modifyTwo _ left right => left.literals + right.literals
  | .atop left right => left.literals + right.literals
  | .fork left middle right => left.literals + middle.literals + right.literals
  | .block body => body.literals + 1
  | _ => 0
termination_by structural expression => expression

def Expression.literalsOfAll : List Expression → Nat
  | [] => 0
  | item :: items => item.literals + Expression.literalsOfAll items
termination_by structural items => items

def Clause.literals : Clause → Nat
  | .expression result => result.literals
  | .define _ value => value.literals
  | .assign _ value => value.literals
  | .modify _ function none => function.literals
  | .modify _ function (some argument) => function.literals + argument.literals
  | .guard test fallback => test.literals + fallback.literals
termination_by structural clause => clause

def Statement.literals : Statement → Nat
  | .mk clause _ => clause.literals
termination_by structural statement => statement

def Statement.literalsOfAll : List Statement → Nat
  | [] => 0
  | statement :: statements => statement.literals + Statement.literalsOfAll statements
termination_by structural statements => statements

def Block.literals : Block → Nat
  | .mk statements => Statement.literalsOfAll statements
termination_by structural block => block

end

end PointFree
