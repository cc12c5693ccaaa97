import PointFree.Surface.Grouping
import PointFree.Text.Lowercase

/-!
Contract: from atoms to trees.

The role of a word is in its spelling: a name with a capital is a function, and
both spellings mean the same variable. Modifiers bind first, from left to
right. What is left is read from the right: an expression that ends in data
applies functions to it, and one that ends in a function is a train, built of
forks from the right.
-/

namespace PointFree

structure Term where
  expression : Expression
  role : Role

/-- An atom once its role is known. -/
inductive Item where
  | term (term : Term)
  | oneModifier (modifier : OneModifier)
  | twoModifier (modifier : TwoModifier)

def nameRole (spelling : String) : Role :=
  if Text.isCapitalized spelling then .function else .data

/-- Binds modifiers to the term before them; the latest term comes first. -/
def bindModifiers : List Item → List Term → Outcome (List Term)
  | [], terms => .ok terms
  | .term term :: rest, terms => bindModifiers rest (term :: terms)
  | .oneModifier modifier :: _, [] => refuse (.modifierWithoutOperand modifier.glyph)
  | .twoModifier modifier :: _, [] => refuse (.modifierWithoutOperand modifier.glyph)
  | .oneModifier modifier :: rest, operand :: terms =>
      bindModifiers rest
        (⟨.modifyOne modifier.glyph operand.expression, .function⟩ :: terms)
  | .twoModifier modifier :: .term right :: rest, left :: terms =>
      bindModifiers rest
        (⟨.modifyTwo modifier.glyph left.expression right.expression, .function⟩ :: terms)
  | .twoModifier modifier :: _, _ :: _ =>
      refuse (.modifierWithoutRightOperand modifier.glyph)

/-- Applies functions to a value, the nearest first; a value beyond a function
is its left argument. -/
def application (right : Expression) : List Term → Outcome Expression
  | [] => .ok right
  | ⟨_, .data⟩ :: _ => refuse .adjacentValues
  | ⟨function, .function⟩ :: ⟨left, .data⟩ :: rest =>
      application (.callBoth function left right) rest
  | ⟨function, .function⟩ :: rest => application (.call function right) rest

/-- Forks two terms at a time; one that is left over goes atop. -/
def train (right : Expression) : List Term → Outcome Expression
  | [] => .ok right
  | ⟨_, .data⟩ :: _ => refuse .dataInTrain
  | [⟨left, .function⟩] => .ok (.atop left right)
  | ⟨middle, .function⟩ :: ⟨left, _⟩ :: rest => train (.fork left middle right) rest

/-- The expression that terms make up; the last term comes first. -/
def termOfTerms : List Term → Outcome Term
  | [] => refuse .emptyExpression
  | ⟨right, .data⟩ :: rest => (application right rest).map (⟨·, .data⟩)
  | ⟨right, .function⟩ :: rest => (train right rest).map (⟨·, .function⟩)

def termOfItems (items : List Item) : Outcome Term := do
  let terms ← bindModifiers items []
  termOfTerms terms

/-- Each atom beside its reading, which is looked at only where it is needed. -/
abbrev Readings := List (Atom × Outcome Item)

def Readings.term (readings : Readings) : Outcome Term := do
  let items ← readings.mapM Prod.snd
  termOfItems items

def Readings.expression (readings : Readings) : Outcome Expression :=
  readings.term.map Term.expression

/-- An entry of a strand; its role is lost. -/
def strandEntry (item : Item) : Outcome Expression :=
  match item with
  | .term term => .ok term.expression
  | .oneModifier modifier => refuse (.strandedModifier modifier.glyph)
  | .twoModifier modifier => refuse (.strandedModifier modifier.glyph)

mutual

def Atom.target : Atom → Outcome Target
  | .name spelling => .ok (.name (Text.lowercase spelling))
  | .strand atoms => (Atom.targets atoms).map Target.list
  | .list elements => (Atom.elementTargets elements).map Target.list
  | _ => refuse .unassignable
termination_by structural atom => atom

def Atom.targets : List Atom → Outcome (List Target)
  | [] => .ok []
  | atom :: atoms => do
      let first ← atom.target
      let rest ← Atom.targets atoms
      return first :: rest
termination_by structural atoms => atoms

def Atom.elementTargets : List (List Atom) → Outcome (List Target)
  | [] => .ok []
  | element :: elements => do
      let first ← Atom.soleTarget element
      let rest ← Atom.elementTargets elements
      return first :: rest
termination_by structural elements => elements

def Atom.soleTarget : List Atom → Outcome Target
  | [atom] => atom.target
  | _ => refuse .destructuredExpression
termination_by structural atoms => atoms

end

def isGuard : Atom → Bool
  | .guard => true
  | _ => false

def isArrow : Atom → Bool
  | .define | .assign => true
  | _ => false

/-- A statement that changes one variable in place: its name, the function, and
what stands after the arrow. -/
def modification (first : Atom) (function after : Readings) : Outcome Clause :=
  match first with
  | .name spelling => do
      let operator ← function.term
      if operator.role = .data then refuse (.modifiedByData spelling)
      else if after.isEmpty then
        return .modify (Text.lowercase spelling) operator.expression none
      else
        let argument ← after.expression
        return .modify (Text.lowercase spelling) operator.expression (some argument)
  | _ => refuse .modifiedExpression

/-- What a statement with an arrow does, by what stands on its two sides. -/
def assignment (before : Readings) (arrow : Atom) (after : Readings) : Outcome Clause :=
  match before, arrow with
  | [(atom, _)], .define => do
      let target ← atom.target
      let value ← after.expression
      return .define target value
  | [(atom, _)], .assign => do
      let target ← atom.target
      let value ← after.expression
      return .assign target value
  | (atom, _) :: function, .assign => modification atom function after
  | _, _ => refuse .malformedAssignment

/-- A guard divides a statement wherever it stands, and otherwise the first
arrow does. -/
def Readings.clause (readings : Readings) : Outcome Clause :=
  match readings.span fun reading => !isGuard reading.1 with
  | (before, _ :: after) => do
      let test ← Readings.expression before
      let fallback ← Readings.expression after
      return .guard test fallback
  | (_, []) =>
      match readings.span fun reading => !isArrow reading.1 with
      | (before, (arrow, _) :: after) => assignment before arrow after
      | (_, []) => readings.expression.map Clause.expression

def dataItem (expression : Expression) : Outcome Item :=
  .ok (.term ⟨expression, .data⟩)

mutual

def Atom.item : Atom → Outcome Item
  | .number amount => dataItem (.number amount)
  | .character letter => dataItem (.character letter)
  | .string text => dataItem (.string text)
  | .name spelling => .ok (.term ⟨.name (Text.lowercase spelling), nameRole spelling⟩)
  | .system spelling => .ok (.term ⟨.primitive (Text.lowercase spelling), nameRole spelling⟩)
  | .implicit variant role => .ok (.term ⟨.implicit variant, role⟩)
  | .primitive glyph => .ok (.term ⟨.primitive (String.singleton glyph.glyph), .function⟩)
  | .oneModifier modifier => .ok (.oneModifier modifier)
  | .twoModifier modifier => .ok (.twoModifier modifier)
  | .paren atoms => (Readings.term (Atom.readings atoms)).map Item.term
  | .list elements => (Atom.elementExpressions elements).bind fun items => dataItem (.list items)
  | .strand atoms => (Atom.strandExpressions atoms).bind fun items => dataItem (.list items)
  | .block statements => do
      let body ← RawStatement.readAll statements
      return .term ⟨.block (.mk body), .function⟩
  | .define | .assign => refuse .strayAssignment
  | .guard => refuse .strayGuard
termination_by structural atom => atom

def Atom.readings : List Atom → Readings
  | [] => []
  | atom :: atoms => (atom, atom.item) :: Atom.readings atoms
termination_by structural atoms => atoms

def Atom.elementExpressions : List (List Atom) → Outcome (List Expression)
  | [] => .ok []
  | element :: elements => do
      let first ← Readings.expression (Atom.readings element)
      let rest ← Atom.elementExpressions elements
      return first :: rest
termination_by structural elements => elements

def Atom.strandExpressions : List Atom → Outcome (List Expression)
  | [] => .ok []
  | atom :: atoms => do
      let item ← atom.item
      let first ← strandEntry item
      let rest ← Atom.strandExpressions atoms
      return first :: rest
termination_by structural atoms => atoms

def RawStatement.read : RawStatement → Outcome Statement
  | .mk atoms span =>
      (Outcome.within (some span) (Readings.clause (Atom.readings atoms))).map
        (.mk · (some span))
termination_by structural statement => statement

def RawStatement.readAll : List RawStatement → Outcome (List Statement)
  | [] => .ok []
  | statement :: statements => do
      let first ← statement.read
      let rest ← RawStatement.readAll statements
      return first :: rest
termination_by structural statements => statements

end

/-- Reads a source text as a program. -/
def Block.parse (source : String) : Outcome Block := do
  let statements ← rawStatements source
  let read ← RawStatement.readAll statements
  return .mk read

end PointFree
