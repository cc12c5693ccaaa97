import PointFree.Tree.Document

/-!
Contract: what a program is written as is read as the program.

Documents are compared here before they are texts. The numbers of a document may have been
replaced by others on the way; everything else comes back as it is.
-/

namespace PointFree

variable {change : Float → Float}

/-! ### Numbers replaced -/

mutual

/-- The expression with other numbers, in function literals as well. -/
def Expression.mapNumbers (change : Float → Float) : Expression → Expression
  | .number amount => .number (change amount)
  | .list items => .list (Expression.mapAllNumbers change items)
  | .call function right => .call (function.mapNumbers change) (right.mapNumbers change)
  | .callBoth function left right =>
      .callBoth (function.mapNumbers change) (left.mapNumbers change) (right.mapNumbers change)
  | .modifyOne glyph operand => .modifyOne glyph (operand.mapNumbers change)
  | .modifyTwo glyph left right =>
      .modifyTwo glyph (left.mapNumbers change) (right.mapNumbers change)
  | .atop left right => .atop (left.mapNumbers change) (right.mapNumbers change)
  | .fork left middle right =>
      .fork (left.mapNumbers change) (middle.mapNumbers change) (right.mapNumbers change)
  | .block body => .block (body.mapNumbers change)
  | leaf => leaf
termination_by structural expression => expression

def Expression.mapAllNumbers (change : Float → Float) : List Expression → List Expression
  | [] => []
  | item :: items => item.mapNumbers change :: Expression.mapAllNumbers change items
termination_by structural items => items

def Clause.mapNumbers (change : Float → Float) : Clause → Clause
  | .expression result => .expression (result.mapNumbers change)
  | .define target value => .define target (value.mapNumbers change)
  | .assign target value => .assign target (value.mapNumbers change)
  | .modify name function none => .modify name (function.mapNumbers change) none
  | .modify name function (some argument) =>
      .modify name (function.mapNumbers change) (some (argument.mapNumbers change))
  | .guard test fallback => .guard (test.mapNumbers change) (fallback.mapNumbers change)
termination_by structural clause => clause

def Statement.mapNumbers (change : Float → Float) : Statement → Statement
  | .mk clause span => .mk (clause.mapNumbers change) span
termination_by structural statement => statement

def Statement.mapAllNumbers (change : Float → Float) : List Statement → List Statement
  | [] => []
  | statement :: statements =>
      statement.mapNumbers change :: Statement.mapAllNumbers change statements
termination_by structural statements => statements

def Block.mapNumbers (change : Float → Float) : Block → Block
  | .mk statements => .mk (Statement.mapAllNumbers change statements)
termination_by structural block => block

end

namespace Json

mutual

/-- The document with other numbers, except for those that are written as natural numbers. -/
def mapNumbers (change : Float → Float) : Json → Json
  | .number value none => .number (change value) none
  | .list items => .list (mapAllNumbers change items)
  | .object fields => .object (mapFieldNumbers change fields)
  | other => other
termination_by structural json => json

def mapAllNumbers (change : Float → Float) : List Json → List Json
  | [] => []
  | item :: items => item.mapNumbers change :: mapAllNumbers change items
termination_by structural items => items

def mapFieldNumbers (change : Float → Float) : List (String × Json) → List (String × Json)
  | [] => []
  | (key, value) :: fields => (key, value.mapNumbers change) :: mapFieldNumbers change fields
termination_by structural fields => fields

end

/-! ### Reading what is written -/

theorem letter?_singleton (letter : Char) : letter? (String.singleton letter) = some letter := by
  simp [letter?]

theorem implicit?_tag (variant : Implicit) : implicit? variant.tag = some variant := by
  cases variant <;> rfl

theorem optionalSpan?_toJson (span : Option Span) :
    ((optionalSpanToJson span).mapNumbers change).optionalSpan? = some span := by
  cases span with
  | none => rfl
  | some span => rfl

mutual

theorem target?_toJson (target : Target) :
    (target.toJson.mapNumbers change).target? = some target := by
  match target with
  | .name word => simp [Target.toJson, mapNumbers, mapFieldNumbers, target?]
  | .list targets =>
      simp [Target.toJson, mapNumbers, mapFieldNumbers, target?, targets?_toJsons targets]
termination_by structural target

theorem targets?_toJsons (targets : List Target) :
    targets? (mapAllNumbers change (Target.toJsons targets)) = some targets := by
  match targets with
  | [] => rfl
  | target :: targets =>
      simp [Target.toJsons, mapAllNumbers, targets?, target?_toJson target,
        targets?_toJsons targets]
termination_by structural targets

end

theorem optionalExpression?_of_expression? {json : Json} {expression : Expression}
    (reads : json.expression? = some expression) :
    json.optionalExpression? = some (some expression) := by
  unfold expression? at reads
  split at reads
  · rw [optionalExpression?, reads]
    rfl
  · cases reads

mutual

theorem expression?_toJson (expression : Expression) :
    (expression.toJson.mapNumbers change).expression? = some (expression.mapNumbers change) := by
  match expression with
  | .number amount | .string text | .name word | .primitive word =>
      simp [Expression.toJson, mapNumbers, mapFieldNumbers, ofFloat, expression?, expressionAs?,
        stringExpression?, Expression.mapNumbers]
  | .character letter =>
      simp [Expression.toJson, mapNumbers, mapFieldNumbers, expression?, expressionAs?,
        stringExpression?, letter?_singleton, Expression.mapNumbers]
  | .implicit variant =>
      simp [Expression.toJson, mapNumbers, mapFieldNumbers, expression?, expressionAs?,
        stringExpression?, implicit?_tag, Expression.mapNumbers]
  | .list items =>
      simp [Expression.toJson, mapNumbers, mapFieldNumbers, expression?, expressionAs?,
        expressions?_toJsons items, Expression.mapNumbers]
  | .call function right =>
      simp [Expression.toJson, mapNumbers, mapFieldNumbers, expression?, expressionAs?,
        expressionIn?, expression?_toJson function, expression?_toJson right,
        Expression.mapNumbers]
  | .callBoth function left right =>
      simp [Expression.toJson, mapNumbers, mapFieldNumbers, expression?, expressionAs?,
        expressionIn?, expression?_toJson function, expression?_toJson left,
        expression?_toJson right, Expression.mapNumbers]
  | .modifyOne glyph operand =>
      simp [Expression.toJson, mapNumbers, mapFieldNumbers, expression?, expressionAs?,
        expressionIn?, letterIn?, stringIn?, field?, string?, letter?_singleton,
        expression?_toJson operand, Expression.mapNumbers]
  | .modifyTwo glyph left right =>
      simp [Expression.toJson, mapNumbers, mapFieldNumbers, expression?, expressionAs?,
        expressionIn?, letterIn?, stringIn?, field?, string?, letter?_singleton,
        expression?_toJson left, expression?_toJson right, Expression.mapNumbers]
  | .atop left right =>
      simp [Expression.toJson, mapNumbers, mapFieldNumbers, expression?, expressionAs?,
        expressionIn?, expression?_toJson left, expression?_toJson right, Expression.mapNumbers]
  | .fork left middle right =>
      simp [Expression.toJson, mapNumbers, mapFieldNumbers, expression?, expressionAs?,
        expressionIn?, expression?_toJson left, expression?_toJson middle,
        expression?_toJson right, Expression.mapNumbers]
  | .block (.mk statements) =>
      simp [Expression.toJson, Block.toJson, mapNumbers, mapFieldNumbers, expression?,
        expressionAs?, statementsIn?, statementList?, statements?_toJsons statements,
        Expression.mapNumbers, Block.mapNumbers]
termination_by structural expression

theorem expressions?_toJsons (items : List Expression) :
    expressions? (mapAllNumbers change (Expression.toJsons items)) =
      some (Expression.mapAllNumbers change items) := by
  match items with
  | [] => rfl
  | item :: items =>
      simp [Expression.toJsons, mapAllNumbers, expressions?, expression?_toJson item,
        expressions?_toJsons items, Expression.mapAllNumbers]
termination_by structural items

theorem clause?_toJson (clause : Clause) :
    (clause.toJson.mapNumbers change).clause? = some (clause.mapNumbers change) := by
  match clause with
  | .expression result =>
      simp [Clause.toJson, mapNumbers, mapFieldNumbers, clause?, expression?_toJson result,
        Clause.mapNumbers]
  | .define target value =>
      simp [Clause.toJson, mapNumbers, mapFieldNumbers, clause?, clauseAs?, targetIn?, field?,
        expressionIn?, target?_toJson, expression?_toJson value, Clause.mapNumbers]
  | .assign target value =>
      simp [Clause.toJson, mapNumbers, mapFieldNumbers, clause?, clauseAs?, targetIn?, field?,
        expressionIn?, target?_toJson, expression?_toJson value, Clause.mapNumbers]
  | .modify name function none =>
      simp [Clause.toJson, mapNumbers, mapFieldNumbers, clause?, clauseAs?, stringIn?, field?,
        string?, expressionIn?, optionalExpressionIn?, optionalExpression?,
        expression?_toJson function, Clause.mapNumbers]
  | .modify name function (some argument) =>
      simp [Clause.toJson, mapNumbers, mapFieldNumbers, clause?, clauseAs?, stringIn?, field?,
        string?, expressionIn?, optionalExpressionIn?, expression?_toJson function,
        optionalExpression?_of_expression? (expression?_toJson argument), Clause.mapNumbers]
  | .guard test fallback =>
      simp [Clause.toJson, mapNumbers, mapFieldNumbers, clause?, clauseAs?, expressionIn?,
        expression?_toJson test, expression?_toJson fallback, Clause.mapNumbers]
termination_by structural clause

theorem statement?_toJson (statement : Statement) :
    (statement.toJson.mapNumbers change).statement? = some (statement.mapNumbers change) := by
  match statement with
  | .mk clause span =>
      simp [Statement.toJson, mapNumbers, mapFieldNumbers, statement?, clauseIn?, optionalSpanIn?,
        field?, List.lookup_cons, clause?_toJson clause, optionalSpan?_toJson, Statement.mapNumbers]
termination_by structural statement

theorem statements?_toJsons (statements : List Statement) :
    statements? (mapAllNumbers change (Statement.toJsons statements)) =
      some (Statement.mapAllNumbers change statements) := by
  match statements with
  | [] => rfl
  | statement :: statements =>
      simp [Statement.toJsons, mapAllNumbers, statements?, statement?_toJson statement,
        statements?_toJsons statements, Statement.mapAllNumbers]
termination_by structural statements

end

end Json

end PointFree
