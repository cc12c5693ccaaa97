import Mathlib.Data.List.Forall2
import PointFree.Program.Emission
import PointFree.Routine

/-!
Contract: what a block, its instructions and its routine have to do with one
another.

A lowering relates a part of a tree to the instructions it is compiled to and to
the node that these instructions are loaded as. It is stated on its own, by what
each part means; that compiling and loading agree with it are theorems here and in
`PointFree.Proofs.Compilation.Replay`. Every other fact about compiled programs
starts from it.
-/

namespace PointFree

theorem Outcome.bind_eq_ok {α β : Type} {outcome : Outcome α} {next : α → Outcome β} {result : β} :
    (outcome >>= next) = .ok result ↔ ∃ value, outcome = .ok value ∧ next value = .ok result := by
  cases outcome with
  | error failure =>
      constructor
      · intro ended
        cases ended
      · rintro ⟨_, ended, _⟩
        cases ended
  | ok value =>
      constructor
      · exact fun ended => ⟨value, rfl, ended⟩
      · rintro ⟨_, same, ended⟩
        cases same
        exact ended

theorem Outcome.map_eq_ok {α β : Type} {outcome : Outcome α} {change : α → β} {result : β} :
    outcome.map change = .ok result ↔ ∃ value, outcome = .ok value ∧ change value = result := by
  cases outcome with
  | error failure =>
      constructor
      · intro ended
        cases ended
      · rintro ⟨_, ended, _⟩
        cases ended
  | ok value =>
      constructor
      · intro ended
        cases ended
        exact ⟨value, rfl, rfl⟩
      · rintro ⟨_, same, rfl⟩
        cases same
        rfl

theorem Outcome.exists_of_isOk {α : Type} {outcome : Outcome α} (succeeds : outcome.isOk = true) :
    ∃ value, outcome = .ok value := by
  cases outcome with
  | ok value => exact ⟨value, rfl⟩
  | error failure => cases succeeds

theorem Outcome.eq_ok_of_toOption {α : Type} {outcome : Outcome α} {result : α}
    (found : outcome.toOption = some result) : outcome = .ok result := by
  cases outcome with
  | ok => exact congrArg Except.ok (Option.some.inj found)
  | error => cases found

/-- What the code of a block may refer to. -/
structure Site where
  vocabulary : Vocabulary
  constants : Array Value
  /-- The scopes around the block, the innermost first. -/
  outer : List Scope
  /-- The number stands for a function literal with this body. -/
  closes : Nat → Block → Prop

/-- An instruction whose operand has been filled in. -/
inductive Fills (constants : Array Value) (closes : Nat → Block → Prop) :
    Emitted → Instruction → Prop where
  | instruction (instruction : Instruction) :
      Fills constants closes (.instruction instruction) instruction
  | literal {place : Nat} {value : Value} :
      constants[place]? = some value → Fills constants closes (.literal value) (.push place)
  | closure {number : Nat} {body : Block} :
      closes number body → Fills constants closes (.closure body) (.closure number)

mutual

inductive Expression.Lowers (site : Site) (scope : Scope) :
    Expression → List Instruction → Node → Prop where
  | number {amount : Float} {place : Nat} :
      site.constants[place]? = some (.number amount) →
      Lowers site scope (.number amount) [.push place] (.constant (.number amount))
  | character {letter : Char} {place : Nat} :
      site.constants[place]? = some (.character letter) →
      Lowers site scope (.character letter) [.push place] (.constant (.character letter))
  | string {text : String} {place : Nat} :
      site.constants[place]? = some (.ofString text) →
      Lowers site scope (.string text) [.push place] (.constant (.ofString text))
  | name {word : String} {depth slot : Nat} :
      Scope.resolve? word (scope :: site.outer) = some (depth, slot) →
      Lowers site scope (.name word) [.load depth slot] (.load depth slot)
  | primitive {word : String} {place : Nat} {value : Value} :
      site.vocabulary.value? word = some value → site.constants[place]? = some value →
      Lowers site scope (.primitive word) [.push place] (.constant value)
  | implicit (variant : Implicit) :
      Lowers site scope (.implicit variant) [.load 0 variant.slot] (.load 0 variant.slot)
  | list {items : List Expression} {code : List Instruction} {nodes : List Node} :
      LowersAll site scope items code nodes →
      Lowers site scope (.list items) (code ++ [.list items.length]) (.list nodes)
  | call {function right : Expression} {rightCode functionCode : List Instruction}
      {rightNode functionNode : Node} :
      Lowers site scope right rightCode rightNode →
      Lowers site scope function functionCode functionNode →
      Lowers site scope (.call function right) (rightCode ++ functionCode ++ [.call])
        (.call rightNode functionNode)
  | callBoth {function left right : Expression}
      {rightCode functionCode leftCode : List Instruction}
      {rightNode functionNode leftNode : Node} :
      Lowers site scope right rightCode rightNode →
      Lowers site scope function functionCode functionNode →
      Lowers site scope left leftCode leftNode →
      Lowers site scope (.callBoth function left right)
        (rightCode ++ functionCode ++ leftCode ++ [.callBoth])
        (.callBoth rightNode functionNode leftNode)
  | modifyOne {glyph : Char} {modifier : OneModifier} {operand : Expression}
      {code : List Instruction} {node : Node} :
      OneModifier.ofGlyph? glyph = some modifier → Lowers site scope operand code node →
      Lowers site scope (.modifyOne glyph operand) (code ++ [.modifyOne modifier.code])
        (.modifyOne modifier node)
  | modifyTwo {glyph : Char} {modifier : TwoModifier} {left right : Expression}
      {rightCode leftCode : List Instruction} {rightNode leftNode : Node} :
      TwoModifier.ofGlyph? glyph = some modifier → Lowers site scope right rightCode rightNode →
      Lowers site scope left leftCode leftNode →
      Lowers site scope (.modifyTwo glyph left right)
        (rightCode ++ leftCode ++ [.modifyTwo modifier.code])
        (.modifyTwo modifier rightNode leftNode)
  | atop {left right : Expression} {rightCode leftCode : List Instruction}
      {rightNode leftNode : Node} :
      Lowers site scope right rightCode rightNode → Lowers site scope left leftCode leftNode →
      Lowers site scope (.atop left right) (rightCode ++ leftCode ++ [.atop])
        (.atop rightNode leftNode)
  | fork {left middle right : Expression} {rightCode middleCode leftCode : List Instruction}
      {rightNode middleNode leftNode : Node} :
      Lowers site scope right rightCode rightNode →
      Lowers site scope middle middleCode middleNode →
      Lowers site scope left leftCode leftNode →
      Lowers site scope (.fork left middle right)
        (rightCode ++ middleCode ++ leftCode ++ [.fork])
        (.fork rightNode middleNode leftNode)
  | block {body : Block} {number : Nat} :
      site.closes number body →
      Lowers site scope (.block body) [.closure number] (.closure number)

inductive Expression.LowersAll (site : Site) (scope : Scope) :
    List Expression → List Instruction → List Node → Prop where
  | nil : LowersAll site scope [] [] []
  | cons {item : Expression} {items : List Expression} {code codes : List Instruction}
      {node : Node} {nodes : List Node} :
      Lowers site scope item code node → LowersAll site scope items codes nodes →
      LowersAll site scope (item :: items) (code ++ codes) (node :: nodes)

end

mutual

inductive Target.Lowers (scopes : List Scope) : Target → List Instruction → Place → Prop where
  | name {word : String} {depth slot : Nat} :
      Scope.resolve? word scopes = some (depth, slot) →
      Lowers scopes (.name word) [.place depth slot] (.slot depth slot)
  | list {targets : List Target} {code : List Instruction} {places : List Place} :
      LowersAll scopes targets code places →
      Lowers scopes (.list targets) (code ++ [.places targets.length]) (.list places)

inductive Target.LowersAll (scopes : List Scope) :
    List Target → List Instruction → List Place → Prop where
  | nil : LowersAll scopes [] [] []
  | cons {target : Target} {targets : List Target} {code codes : List Instruction}
      {place : Place} {places : List Place} :
      Lowers scopes target code place → LowersAll scopes targets codes places →
      LowersAll scopes (target :: targets) (code ++ codes) (place :: places)

end

/-- A statement that is no guard, with the scope after it. -/
inductive Clause.Lowers (site : Site) (scope : Scope) :
    Clause → Scope → List Instruction → Node → Prop where
  | expression {result : Expression} {code : List Instruction} {node : Node} :
      result.Lowers site scope code node →
      Lowers site scope (.expression result) scope code node
  | define {target : Target} {value : Expression} {extended : Scope}
      {code places : List Instruction} {node : Node} {place : Place} :
      value.Lowers site scope code node → scope.declareAll target.names = .ok extended →
      target.Lowers (extended :: site.outer) places place →
      Lowers site scope (.define target value) extended (code ++ places ++ [.define])
        (.define node place)
  | assign {target : Target} {value : Expression} {code places : List Instruction} {node : Node}
      {place : Place} :
      value.Lowers site scope code node → target.Lowers (scope :: site.outer) places place →
      Lowers site scope (.assign target value) scope (code ++ places ++ [.assign])
        (.assign node place)
  | update {name : String} {function : Expression} {code places : List Instruction} {node : Node}
      {place : Place} :
      function.Lowers site scope code node →
      (Target.name name).Lowers (scope :: site.outer) places place →
      Lowers site scope (.modify name function none) scope (code ++ places ++ [.update])
        (.update node place)
  | updateWith {name : String} {function argument : Expression}
      {argumentCode functionCode places : List Instruction} {argumentNode functionNode : Node}
      {place : Place} :
      argument.Lowers site scope argumentCode argumentNode →
      function.Lowers site scope functionCode functionNode →
      (Target.name name).Lowers (scope :: site.outer) places place →
      Lowers site scope (.modify name function (some argument)) scope
        (argumentCode ++ functionCode ++ places ++ [.updateWith])
        (.updateWith argumentNode functionNode place)

/-- An instruction with the statement it belongs to. -/
abbrev Marked := Instruction × Option Span

def placedAt (span : Option Span) (code : List Instruction) : List Marked :=
  code.map (·, span)

/-- Statements up to the one that returns, with the scope after them. -/
inductive Statement.Lowers (site : Site) :
    Scope → List Statement → Scope → List Marked → List Step → Prop where
  | finish {scope extended : Scope} {clause : Clause} {span : Option Span}
      {code : List Instruction} {node : Node} :
      clause.Lowers site scope extended code node →
      Lowers site scope [.mk clause span] extended (placedAt span (code ++ [.finish]))
        [.finish node span]
  | evaluate {scope extended whole : Scope} {clause : Clause} {span : Option Span}
      {rest : List Statement} {code : List Instruction}
      {placed : List Marked} {node : Node} {steps : List Step} :
      clause.Lowers site scope extended code node →
      Lowers site extended rest whole placed steps →
      Lowers site scope (.mk clause span :: rest) whole
        (placedAt span (code ++ [.discard]) ++ placed) (.evaluate node span :: steps)
  | guard {scope whole : Scope} {test fallback : Expression} {span : Option Span}
      {rest : List Statement} {testCode fallbackCode : List Instruction}
      {placed : List Marked} {testNode fallbackNode : Node}
      {steps : List Step} :
      test.Lowers site scope testCode testNode →
      fallback.Lowers site scope fallbackCode fallbackNode →
      Lowers site scope rest whole placed steps →
      Lowers site scope (.mk (.guard test fallback) span :: rest) whole
        (placedAt span (testCode ++ [.test] ++ fallbackCode ++ [.fallback]) ++ placed)
        (.guard testNode fallbackNode span :: steps)

/-- A block whose scope begins with some names, and its whole scope. -/
inductive Block.Lowers (site : Site) (scope : Scope) :
    Block → Scope → List Marked → List Step → Prop where
  | empty {place : Nat} :
      site.constants[place]? = some .nil →
      Lowers site scope (.mk []) scope [(.push place, none), (.finish, none)]
        [.finish (.constant .nil) none]
  | statements {statements : List Statement} {whole : Scope}
      {placed : List Marked} {steps : List Step} :
      Statement.Lowers site scope statements whole placed steps →
      Lowers site scope (.mk statements) whole placed steps

end PointFree
