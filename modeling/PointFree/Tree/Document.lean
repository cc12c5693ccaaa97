import PointFree.Failure
import PointFree.Json.Reading
import PointFree.Tree

/-!
Contract: programs as JSON documents.

Each kind of tree node is an object with one field, named for the kind.
Blocks, statements and spans are objects, but may also be read from lists of
their parts in order. A span that is not known is null or left out, and so is
the argument of a modification that has none; fields that no part is named for
are passed over.
-/

namespace PointFree

namespace Json

def natural? : Json → Option Nat
  | .number _ natural => natural
  | _ => none

def string? : Json → Option String
  | .string text => some text
  | _ => none

/-- A string of exactly one character. -/
def letter? (text : String) : Option Char :=
  match text.toList with
  | [letter] => some letter
  | _ => none

def stringIn? (key : String) (fields : List (String × Json)) : Option String :=
  (field? key fields).bind string?

def letterIn? (key : String) (fields : List (String × Json)) : Option Char :=
  (stringIn? key fields).bind letter?

def implicit? (tag : String) : Option Implicit :=
  if tag = "this" then some .this
  else if tag = "right" then some .right
  else if tag = "left" then some .left
  else none

def spanOf? (start stop : Json) : Option Span := do
  let first ← start.natural?
  let last ← stop.natural?
  return ⟨first, last⟩

def span? : Json → Option Span
  | .list [start, stop] => spanOf? start stop
  | .object fields => do
      let start ← field? "start" fields
      let stop ← field? "end" fields
      spanOf? start stop
  | _ => none

/-- The span of a statement, which may be null. -/
def optionalSpan? : Json → Option (Option Span)
  | .null => some none
  | other => other.span?.map some

def optionalSpanIn? (fields : List (String × Json)) : Option (Option Span) :=
  match field? "span" fields with
  | none => some none
  | some found => found.optionalSpan?

mutual

def target? : Json → Option Target
  | .object [(tag, .string name)] => if tag = "name" then some (.name name) else none
  | .object [(tag, .list items)] =>
      if tag = "list" then (targets? items).map Target.list else none
  | _ => none
termination_by structural json => json

def targets? : List Json → Option (List Target)
  | [] => some []
  | item :: items => do
      let first ← item.target?
      let rest ← targets? items
      return first :: rest
termination_by structural items => items

end

def targetIn? (fields : List (String × Json)) : Option Target :=
  (field? "target" fields).bind target?

def stringExpression? (tag text : String) : Option Expression :=
  if tag = "character" then (letter? text).map Expression.character
  else if tag = "string" then some (.string text)
  else if tag = "name" then some (.name text)
  else if tag = "primitive" then some (.primitive text)
  else if tag = "special" then (implicit? text).map Expression.implicit
  else none

mutual

def expression? : Json → Option Expression
  | .object [(tag, content)] => content.expressionAs? tag
  | _ => none
termination_by structural json => json

/-- The expression of a kind that a document holds the parts of. -/
def expressionAs? (tag : String) : Json → Option Expression
  | .number value _ => if tag = "number" then some (.number value) else none
  | .string text => stringExpression? tag text
  | .list items =>
      if tag = "list" then (expressions? items).map Expression.list
      else if tag = "block" then (soleStatements? items).map fun found => .block (.mk found)
      else none
  | .object fields =>
      if tag = "block" then (statementsIn? fields).map fun found => .block (.mk found)
      else if tag = "call1" then do
        let function ← expressionIn? "function" fields
        let right ← expressionIn? "y" fields
        return .call function right
      else if tag = "call2" then do
        let function ← expressionIn? "function" fields
        let left ← expressionIn? "x" fields
        let right ← expressionIn? "y" fields
        return .callBoth function left right
      else if tag = "modifier1" then do
        let glyph ← letterIn? "op" fields
        let operand ← expressionIn? "operand" fields
        return .modifyOne glyph operand
      else if tag = "modifier2" then do
        let glyph ← letterIn? "op" fields
        let left ← expressionIn? "f" fields
        let right ← expressionIn? "g" fields
        return .modifyTwo glyph left right
      else if tag = "atop" then do
        let left ← expressionIn? "f" fields
        let right ← expressionIn? "g" fields
        return .atop left right
      else if tag = "fork" then do
        let left ← expressionIn? "f" fields
        let middle ← expressionIn? "g" fields
        let right ← expressionIn? "h" fields
        return .fork left middle right
      else if tag = "special" then
        match fields with
        | [(name, .null)] => (implicit? name).map Expression.implicit
        | _ => none
      else none
  | _ => none
termination_by structural json => json

def expressions? : List Json → Option (List Expression)
  | [] => some []
  | item :: items => do
      let first ← item.expression?
      let rest ← expressions? items
      return first :: rest
termination_by structural items => items

def expressionIn? (key : String) : List (String × Json) → Option Expression
  | [] => none
  | (other, value) :: fields =>
      if other = key then value.expression? else expressionIn? key fields
termination_by structural fields => fields

/-- A part that may be null or left out. -/
def optionalExpression? : Json → Option (Option Expression)
  | .null => some none
  | .object [(tag, content)] => (content.expressionAs? tag).map some
  | _ => none
termination_by structural json => json

def optionalExpressionIn? (key : String) : List (String × Json) → Option (Option Expression)
  | [] => some none
  | (other, value) :: fields =>
      if other = key then value.optionalExpression? else optionalExpressionIn? key fields
termination_by structural fields => fields

def clause? : Json → Option Clause
  | .object [(tag, content)] =>
      if tag = "expr" then content.expression?.map Clause.expression else content.clauseAs? tag
  | _ => none
termination_by structural json => json

def clauseAs? (tag : String) : Json → Option Clause
  | .object fields =>
      if tag = "define" then do
        let target ← targetIn? fields
        let value ← expressionIn? "value" fields
        return .define target value
      else if tag = "assign" then do
        let target ← targetIn? fields
        let value ← expressionIn? "value" fields
        return .assign target value
      else if tag = "modify" then do
        let name ← stringIn? "name" fields
        let function ← expressionIn? "function" fields
        let argument ← optionalExpressionIn? "arg" fields
        return .modify name function argument
      else if tag = "guard" then do
        let test ← expressionIn? "test" fields
        let fallback ← expressionIn? "fallback" fields
        return .guard test fallback
      else none
  | _ => none
termination_by structural json => json

def clauseIn? : List (String × Json) → Option Clause
  | [] => none
  | (key, value) :: fields => if key = "kind" then value.clause? else clauseIn? fields
termination_by structural fields => fields

def statement? : Json → Option Statement
  | .list [kind] => kind.clause?.map (.mk · none)
  | .list [kind, span] => do
      let clause ← kind.clause?
      let place ← span.optionalSpan?
      return .mk clause place
  | .object fields => do
      let clause ← clauseIn? fields
      let place ← optionalSpanIn? fields
      return .mk clause place
  | _ => none
termination_by structural json => json

def statementList? : Json → Option (List Statement)
  | .list items => statements? items
  | _ => none
termination_by structural json => json

def statements? : List Json → Option (List Statement)
  | [] => some []
  | item :: items => do
      let first ← item.statement?
      let rest ← statements? items
      return first :: rest
termination_by structural items => items

/-- The statements of a block that is written as a list of its one part. -/
def soleStatements? : List Json → Option (List Statement)
  | [item] => item.statementList?
  | _ => none
termination_by structural items => items

def statementsIn? : List (String × Json) → Option (List Statement)
  | [] => none
  | (key, value) :: fields =>
      if key = "stmts" then value.statementList? else statementsIn? fields
termination_by structural fields => fields

end

end Json

def Span.toJson (span : Span) : Json :=
  .object [("start", .ofNat span.start), ("end", .ofNat span.stop)]

def optionalSpanToJson : Option Span → Json
  | none => .null
  | some span => span.toJson

def Implicit.tag : Implicit → String
  | .this => "this"
  | .right => "right"
  | .left => "left"

mutual

def Target.toJson : Target → Json
  | .name word => .object [("name", .string word)]
  | .list targets => .object [("list", .list (Target.toJsons targets))]
termination_by structural target => target

def Target.toJsons : List Target → List Json
  | [] => []
  | target :: targets => target.toJson :: Target.toJsons targets
termination_by structural targets => targets

end

mutual

def Expression.toJson : Expression → Json
  | .number amount => .object [("number", .ofFloat amount)]
  | .character letter => .object [("character", .string (String.singleton letter))]
  | .string text => .object [("string", .string text)]
  | .name word => .object [("name", .string word)]
  | .primitive word => .object [("primitive", .string word)]
  | .implicit variant => .object [("special", .string variant.tag)]
  | .list items => .object [("list", .list (Expression.toJsons items))]
  | .call function right =>
      .object [("call1", .object [("function", function.toJson), ("y", right.toJson)])]
  | .callBoth function left right =>
      .object [("call2",
        .object [("function", function.toJson), ("x", left.toJson), ("y", right.toJson)])]
  | .modifyOne glyph operand =>
      .object [("modifier1",
        .object [("op", .string (String.singleton glyph)), ("operand", operand.toJson)])]
  | .modifyTwo glyph left right =>
      .object [("modifier2",
        .object [("op", .string (String.singleton glyph)), ("f", left.toJson),
          ("g", right.toJson)])]
  | .atop left right =>
      .object [("atop", .object [("f", left.toJson), ("g", right.toJson)])]
  | .fork left middle right =>
      .object [("fork",
        .object [("f", left.toJson), ("g", middle.toJson), ("h", right.toJson)])]
  | .block body => .object [("block", body.toJson)]
termination_by structural expression => expression

def Expression.toJsons : List Expression → List Json
  | [] => []
  | item :: items => item.toJson :: Expression.toJsons items
termination_by structural items => items

def Clause.toJson : Clause → Json
  | .expression result => .object [("expr", result.toJson)]
  | .define target value =>
      .object [("define", .object [("target", target.toJson), ("value", value.toJson)])]
  | .assign target value =>
      .object [("assign", .object [("target", target.toJson), ("value", value.toJson)])]
  | .modify name function none =>
      .object [("modify",
        .object [("name", .string name), ("function", function.toJson), ("arg", .null)])]
  | .modify name function (some argument) =>
      .object [("modify",
        .object [("name", .string name), ("function", function.toJson),
          ("arg", argument.toJson)])]
  | .guard test fallback =>
      .object [("guard", .object [("test", test.toJson), ("fallback", fallback.toJson)])]
termination_by structural clause => clause

def Statement.toJson : Statement → Json
  | .mk clause span =>
      .object [("kind", clause.toJson), ("span", optionalSpanToJson span)]
termination_by structural statement => statement

def Statement.toJsons : List Statement → List Json
  | [] => []
  | statement :: statements => statement.toJson :: Statement.toJsons statements
termination_by structural statements => statements

def Block.toJson : Block → Json
  | .mk statements => .object [("stmts", .list (Statement.toJsons statements))]
termination_by structural block => block

end

/-- The program as text of a document. -/
def Block.documentText (block : Block) : String :=
  block.toJson.text

/-- Reads the text of a document as a program. -/
def Block.ofDocument (text : String) : Outcome Block :=
  match Json.read? text with
  | none => refuse .invalidDocument
  | some (.object fields) =>
      match Json.statementsIn? fields with
      | some statements => .ok (.mk statements)
      | none => refuse .invalidProgram
  | some _ => refuse .documentNotObject

end PointFree
