import PointFree.Proofs.Interchange.Nesting
import PointFree.Proofs.Interchange.Nulls

/-!
Contract: a program that was read from a document comes back from the document it is written as.

Whatever layout the first document has, the program is written in one that is accepted, and every
node, name, letter and span of it comes back. A number comes back as what its shortest digits
denote, which is the number itself unless the reader rounds more than once on the way. A program
that stems from elsewhere may have numbers that are not finite; it is written, with null for these,
and what is written is no program.
-/

namespace PointFree

open Json

/-! ### The numbers of a program -/

mutual

/-- The numbers that an expression is written with, also in its function literals. -/
def Expression.numbers : Expression → List Float
  | .number amount => [amount]
  | .list items => Expression.allNumbers items
  | .call function right => function.numbers ++ right.numbers
  | .callBoth function left right => function.numbers ++ left.numbers ++ right.numbers
  | .modifyOne _ operand => operand.numbers
  | .modifyTwo _ left right => left.numbers ++ right.numbers
  | .atop left right => left.numbers ++ right.numbers
  | .fork left middle right => left.numbers ++ middle.numbers ++ right.numbers
  | .block body => body.numbers
  | _ => []
termination_by structural expression => expression

def Expression.allNumbers : List Expression → List Float
  | [] => []
  | item :: items => item.numbers ++ Expression.allNumbers items
termination_by structural items => items

def Clause.numbers : Clause → List Float
  | .expression result => result.numbers
  | .define _ value => value.numbers
  | .assign _ value => value.numbers
  | .modify _ function none => function.numbers
  | .modify _ function (some argument) => function.numbers ++ argument.numbers
  | .guard test fallback => test.numbers ++ fallback.numbers
termination_by structural clause => clause

def Statement.numbers : Statement → List Float
  | .mk clause _ => clause.numbers
termination_by structural statement => statement

def Statement.allNumbers : List Statement → List Float
  | [] => []
  | statement :: statements => statement.numbers ++ Statement.allNumbers statements
termination_by structural statements => statements

def Block.numbers : Block → List Float
  | .mk statements => Statement.allNumbers statements
termination_by structural block => block

end

section Numbers

variable {change : Float → Float}

mutual

theorem Expression.mapNumbers_eq_self_iff (expression : Expression) :
    expression.mapNumbers change = expression ↔
      ∀ number ∈ expression.numbers, change number = number := by
  match expression with
  | .number _ | .character _ | .string _ | .name _ | .primitive _ | .implicit _ =>
      simp [Expression.mapNumbers, Expression.numbers]
  | .list items =>
      simp [Expression.mapNumbers, Expression.numbers, Expression.mapAllNumbers_eq_self_iff items]
  | .call function right =>
      simp [Expression.mapNumbers, Expression.numbers, function.mapNumbers_eq_self_iff,
        right.mapNumbers_eq_self_iff, or_imp, forall_and]
  | .callBoth function left right =>
      simp [Expression.mapNumbers, Expression.numbers, function.mapNumbers_eq_self_iff,
        left.mapNumbers_eq_self_iff, right.mapNumbers_eq_self_iff, or_imp, forall_and]
  | .modifyOne _ operand =>
      simp [Expression.mapNumbers, Expression.numbers, operand.mapNumbers_eq_self_iff]
  | .modifyTwo _ left right | .atop left right =>
      simp [Expression.mapNumbers, Expression.numbers, left.mapNumbers_eq_self_iff,
        right.mapNumbers_eq_self_iff, or_imp, forall_and]
  | .fork left middle right =>
      simp [Expression.mapNumbers, Expression.numbers, left.mapNumbers_eq_self_iff,
        middle.mapNumbers_eq_self_iff, right.mapNumbers_eq_self_iff, or_imp, forall_and]
  | .block body =>
      simp [Expression.mapNumbers, Expression.numbers, body.mapNumbers_eq_self_iff]
termination_by structural expression

theorem Expression.mapAllNumbers_eq_self_iff (items : List Expression) :
    Expression.mapAllNumbers change items = items ↔
      ∀ number ∈ Expression.allNumbers items, change number = number := by
  match items with
  | [] => simp [Expression.mapAllNumbers, Expression.allNumbers]
  | item :: items =>
      simp [Expression.mapAllNumbers, Expression.allNumbers, item.mapNumbers_eq_self_iff,
        Expression.mapAllNumbers_eq_self_iff items, or_imp, forall_and]
termination_by structural items

theorem Clause.mapNumbers_eq_self_iff (clause : Clause) :
    clause.mapNumbers change = clause ↔ ∀ number ∈ clause.numbers, change number = number := by
  match clause with
  | .expression result =>
      simp [Clause.mapNumbers, Clause.numbers, result.mapNumbers_eq_self_iff]
  | .define _ value | .assign _ value =>
      simp [Clause.mapNumbers, Clause.numbers, value.mapNumbers_eq_self_iff]
  | .modify _ function none =>
      simp [Clause.mapNumbers, Clause.numbers, function.mapNumbers_eq_self_iff]
  | .modify _ function (some argument) =>
      simp [Clause.mapNumbers, Clause.numbers, function.mapNumbers_eq_self_iff,
        argument.mapNumbers_eq_self_iff, or_imp, forall_and]
  | .guard test fallback =>
      simp [Clause.mapNumbers, Clause.numbers, test.mapNumbers_eq_self_iff,
        fallback.mapNumbers_eq_self_iff, or_imp, forall_and]
termination_by structural clause

theorem Statement.mapNumbers_eq_self_iff (statement : Statement) :
    statement.mapNumbers change = statement ↔
      ∀ number ∈ statement.numbers, change number = number := by
  match statement with
  | .mk clause _ =>
      simp [Statement.mapNumbers, Statement.numbers, clause.mapNumbers_eq_self_iff]
termination_by structural statement

theorem Statement.mapAllNumbers_eq_self_iff (statements : List Statement) :
    Statement.mapAllNumbers change statements = statements ↔
      ∀ number ∈ Statement.allNumbers statements, change number = number := by
  match statements with
  | [] => simp [Statement.mapAllNumbers, Statement.allNumbers]
  | statement :: statements =>
      simp [Statement.mapAllNumbers, Statement.allNumbers, statement.mapNumbers_eq_self_iff,
        Statement.mapAllNumbers_eq_self_iff statements, or_imp, forall_and]
termination_by structural statements

theorem Block.mapNumbers_eq_self_iff (block : Block) :
    block.mapNumbers change = block ↔ ∀ number ∈ block.numbers, change number = number := by
  match block with
  | .mk statements =>
      simp [Block.mapNumbers, Block.numbers, Statement.mapAllNumbers_eq_self_iff statements]
termination_by structural block

end

end Numbers

section Writing

variable {holds : Float → Prop}

@[simp] theorem Json.sound_null : null.Sound holds :=
  trivial

@[simp] theorem Json.sound_string (text : String) : (string text).Sound holds :=
  trivial

@[simp] theorem Json.sound_ofNat (natural : Nat) : (ofNat natural).Sound holds :=
  rfl

@[simp] theorem Json.sound_ofFloat (value : Float) :
    (ofFloat value).Sound holds ↔ holds value :=
  Iff.rfl

@[simp] theorem Json.sound_list (items : List Json) :
    (list items).Sound holds ↔ AllSound holds items :=
  Iff.rfl

@[simp] theorem Json.sound_object (fields : List (String × Json)) :
    (object fields).Sound holds ↔
      (fields.map Prod.fst).Nodup ∧ FieldsSound holds fields :=
  Iff.rfl

@[simp] theorem Json.fieldsSound_nil : FieldsSound holds [] :=
  trivial

@[simp] theorem Json.fieldsSound_cons (key : String) (value : Json)
    (fields : List (String × Json)) :
    FieldsSound holds ((key, value) :: fields) ↔
      value.Sound holds ∧ FieldsSound holds fields :=
  Iff.rfl

@[simp] theorem sound_optionalSpanToJson (span : Option Span) :
    (optionalSpanToJson span).Sound holds := by
  cases span <;> simp [optionalSpanToJson, Span.toJson]

mutual

theorem Target.sound_toJson (target : Target) : target.toJson.Sound holds := by
  match target with
  | .name word => simp [Target.toJson]
  | .list targets => simp [Target.toJson, Target.sound_toJsons targets]
termination_by structural target

theorem Target.sound_toJsons (targets : List Target) :
    AllSound holds (Target.toJsons targets) := by
  match targets with
  | [] => trivial
  | target :: targets => exact ⟨target.sound_toJson, Target.sound_toJsons targets⟩
termination_by structural targets

end

mutual

theorem Expression.sound_toJson (expression : Expression)
    (each : ∀ number ∈ expression.numbers, holds number) :
    expression.toJson.Sound holds := by
  match expression with
  | .number amount => simp [Expression.toJson, each amount (List.mem_singleton_self _)]
  | .character _ | .string _ | .name _ | .primitive _ | .implicit _ => simp [Expression.toJson]
  | .list items => simp [Expression.toJson, Expression.sound_toJsons items each]
  | .call function right =>
      rw [Expression.numbers, List.forall_mem_append] at each
      simp [Expression.toJson, function.sound_toJson each.1,
        right.sound_toJson each.2]
  | .callBoth function left right =>
      rw [Expression.numbers, List.forall_mem_append, List.forall_mem_append] at each
      simp [Expression.toJson, function.sound_toJson each.1.1,
        left.sound_toJson each.1.2, right.sound_toJson each.2]
  | .modifyOne _ operand => simp [Expression.toJson, operand.sound_toJson each]
  | .modifyTwo _ left right =>
      rw [Expression.numbers, List.forall_mem_append] at each
      simp [Expression.toJson, left.sound_toJson each.1, right.sound_toJson each.2]
  | .atop left right =>
      rw [Expression.numbers, List.forall_mem_append] at each
      simp [Expression.toJson, left.sound_toJson each.1, right.sound_toJson each.2]
  | .fork left middle right =>
      rw [Expression.numbers, List.forall_mem_append, List.forall_mem_append] at each
      simp [Expression.toJson, left.sound_toJson each.1.1,
        middle.sound_toJson each.1.2, right.sound_toJson each.2]
  | .block (.mk statements) =>
      simp [Expression.toJson, Block.toJson, Statement.sound_toJsons statements each]
termination_by structural expression

theorem Expression.sound_toJsons (items : List Expression)
    (each : ∀ number ∈ Expression.allNumbers items, holds number) :
    AllSound holds (Expression.toJsons items) := by
  match items with
  | [] => trivial
  | item :: items =>
      rw [Expression.allNumbers, List.forall_mem_append] at each
      exact ⟨item.sound_toJson each.1, Expression.sound_toJsons items each.2⟩
termination_by structural items

theorem Clause.sound_toJson (clause : Clause)
    (each : ∀ number ∈ clause.numbers, holds number) :
    clause.toJson.Sound holds := by
  match clause with
  | .expression result => simp [Clause.toJson, result.sound_toJson each]
  | .define target value | .assign target value =>
      simp [Clause.toJson, target.sound_toJson, value.sound_toJson each]
  | .modify _ function none => simp [Clause.toJson, function.sound_toJson each]
  | .modify _ function (some argument) =>
      rw [Clause.numbers, List.forall_mem_append] at each
      simp [Clause.toJson, function.sound_toJson each.1,
        argument.sound_toJson each.2]
  | .guard test fallback =>
      rw [Clause.numbers, List.forall_mem_append] at each
      simp [Clause.toJson, test.sound_toJson each.1, fallback.sound_toJson each.2]
termination_by structural clause

theorem Statement.sound_toJson (statement : Statement)
    (each : ∀ number ∈ statement.numbers, holds number) :
    statement.toJson.Sound holds := by
  match statement with
  | .mk clause span => simp [Statement.toJson, clause.sound_toJson each]
termination_by structural statement

theorem Statement.sound_toJsons (statements : List Statement)
    (each : ∀ number ∈ Statement.allNumbers statements, holds number) :
    AllSound holds (Statement.toJsons statements) := by
  match statements with
  | [] => trivial
  | statement :: statements =>
      rw [Statement.allNumbers, List.forall_mem_append] at each
      exact ⟨statement.sound_toJson each.1, Statement.sound_toJsons statements each.2⟩
termination_by structural statements

end

theorem Block.sound_toJson (block : Block)
    (each : ∀ number ∈ block.numbers, holds number) :
    block.toJson.Sound holds := by
  cases block with
  | mk statements => simp [Block.toJson, Statement.sound_toJsons statements each]

end Writing

/-! ### Numbers that are written as null -/

section Nulls

variable {change : Float → Float}

theorem Expression.expression?_of_optionalExpression? (expression : Expression)
    {found : Option Expression}
    (reads : (expression.toJson.withNulls.mapNumbers change).optionalExpression? = some found) :
    ∃ result, (expression.toJson.withNulls.mapNumbers change).expression? = some result := by
  have isObject : ∃ fields, expression.toJson.withNulls.mapNumbers change = .object fields := by
    cases expression <;> exact ⟨_, rfl⟩
  obtain ⟨fields, isFields⟩ := isObject
  rw [isFields] at reads ⊢
  obtain ⟨tag, content, rfl⟩ := exists_of_optionalExpression? reads
  obtain ⟨result, isResult, _⟩ := Option.map_eq_some_iff.1 reads
  exact ⟨result, isResult⟩

mutual

/-- Null is read as no number. -/
theorem Expression.isFinite_of_reads (expression : Expression) {result : Expression}
    (reads : (expression.toJson.withNulls.mapNumbers change).expression? = some result) :
    ∀ number ∈ expression.numbers, Decimal.isFinite number = true := by
  match expression with
  | .number amount =>
      refine List.forall_mem_singleton.2 ?_
      by_contra infinite
      simp [Expression.toJson, withNulls_ofFloat, infinite, mapNumbers, mapFieldNumbers,
        expression?, expressionAs?] at reads
  | .character _ | .string _ | .name _ | .primitive _ | .implicit _ => exact nofun
  | .list items =>
      obtain ⟨results, areItems, _⟩ := by
        simpa [Expression.toJson, mapNumbers, mapFieldNumbers, expression?, expressionAs?]
          using reads
      exact Expression.isFinite_of_readsAll items areItems
  | .call function right =>
      obtain ⟨_, isFunction, _, isRight, _⟩ := by
        simpa [Expression.toJson, mapNumbers, mapFieldNumbers, expression?, expressionAs?,
          expressionIn?, Option.bind_eq_some_iff] using reads
      exact List.forall_mem_append.2
        ⟨function.isFinite_of_reads isFunction, right.isFinite_of_reads isRight⟩
  | .callBoth function left right =>
      obtain ⟨_, isFunction, _, isLeft, _, isRight, _⟩ := by
        simpa [Expression.toJson, mapNumbers, mapFieldNumbers, expression?, expressionAs?,
          expressionIn?, Option.bind_eq_some_iff] using reads
      exact List.forall_mem_append.2 ⟨List.forall_mem_append.2
        ⟨function.isFinite_of_reads isFunction, left.isFinite_of_reads isLeft⟩,
        right.isFinite_of_reads isRight⟩
  | .modifyOne _ operand =>
      obtain ⟨_, _, _, isOperand, _⟩ := by
        simpa [Expression.toJson, mapNumbers, mapFieldNumbers, expression?, expressionAs?,
          expressionIn?, Option.bind_eq_some_iff] using reads
      exact operand.isFinite_of_reads isOperand
  | .modifyTwo _ left right =>
      obtain ⟨_, _, _, isLeft, _, isRight, _⟩ := by
        simpa [Expression.toJson, mapNumbers, mapFieldNumbers, expression?, expressionAs?,
          expressionIn?, Option.bind_eq_some_iff] using reads
      exact List.forall_mem_append.2
        ⟨left.isFinite_of_reads isLeft, right.isFinite_of_reads isRight⟩
  | .atop left right =>
      obtain ⟨_, isLeft, _, isRight, _⟩ := by
        simpa [Expression.toJson, mapNumbers, mapFieldNumbers, expression?, expressionAs?,
          expressionIn?, Option.bind_eq_some_iff] using reads
      exact List.forall_mem_append.2
        ⟨left.isFinite_of_reads isLeft, right.isFinite_of_reads isRight⟩
  | .fork left middle right =>
      obtain ⟨_, isLeft, _, isMiddle, _, isRight, _⟩ := by
        simpa [Expression.toJson, mapNumbers, mapFieldNumbers, expression?, expressionAs?,
          expressionIn?, Option.bind_eq_some_iff] using reads
      exact List.forall_mem_append.2 ⟨List.forall_mem_append.2
        ⟨left.isFinite_of_reads isLeft, middle.isFinite_of_reads isMiddle⟩,
        right.isFinite_of_reads isRight⟩
  | .block (.mk statements) =>
      obtain ⟨results, areStatements, _⟩ := by
        simpa [Expression.toJson, Block.toJson, mapNumbers, mapFieldNumbers, expression?,
          expressionAs?, statementsIn?, statementList?] using reads
      exact Statement.isFinite_of_readsAll statements areStatements
termination_by structural expression

theorem Expression.isFinite_of_readsAll (items : List Expression) {results : List Expression}
    (reads : expressions? (mapAllNumbers change (allWithNulls (Expression.toJsons items))) =
      some results) :
    ∀ number ∈ Expression.allNumbers items, Decimal.isFinite number = true := by
  match items with
  | [] => exact nofun
  | item :: items =>
      obtain ⟨_, isFirst, _, areRest, _⟩ := by
        simpa [Expression.toJsons, mapAllNumbers, expressions?, Option.bind_eq_some_iff]
          using reads
      exact List.forall_mem_append.2
        ⟨item.isFinite_of_reads isFirst, Expression.isFinite_of_readsAll items areRest⟩
termination_by structural items

theorem Clause.isFinite_of_reads (clause : Clause) {result : Clause}
    (reads : (clause.toJson.withNulls.mapNumbers change).clause? = some result) :
    ∀ number ∈ clause.numbers, Decimal.isFinite number = true := by
  match clause with
  | .expression value =>
      obtain ⟨_, isValue, _⟩ := by
        simpa [Clause.toJson, mapNumbers, mapFieldNumbers, clause?] using reads
      exact value.isFinite_of_reads isValue
  | .define target value | .assign target value =>
      obtain ⟨_, _, _, isValue, _⟩ := by
        simpa [Clause.toJson, mapNumbers, mapFieldNumbers, clause?, clauseAs?, expressionIn?,
          Option.bind_eq_some_iff] using reads
      exact value.isFinite_of_reads isValue
  | .modify _ function none =>
      obtain ⟨_, _, _, isFunction, _⟩ := by
        simpa [Clause.toJson, mapNumbers, mapFieldNumbers, clause?, clauseAs?, expressionIn?,
          Option.bind_eq_some_iff] using reads
      exact function.isFinite_of_reads isFunction
  | .modify _ function (some argument) =>
      obtain ⟨_, _, _, isFunction, _, isArgument, _⟩ := by
        simpa [Clause.toJson, mapNumbers, mapFieldNumbers, clause?, clauseAs?, expressionIn?,
          optionalExpressionIn?, Option.bind_eq_some_iff] using reads
      obtain ⟨_, isArgument⟩ := argument.expression?_of_optionalExpression? isArgument
      exact List.forall_mem_append.2
        ⟨function.isFinite_of_reads isFunction, argument.isFinite_of_reads isArgument⟩
  | .guard test fallback =>
      obtain ⟨_, isTest, _, isFallback, _⟩ := by
        simpa [Clause.toJson, mapNumbers, mapFieldNumbers, clause?, clauseAs?, expressionIn?,
          Option.bind_eq_some_iff] using reads
      exact List.forall_mem_append.2
        ⟨test.isFinite_of_reads isTest, fallback.isFinite_of_reads isFallback⟩
termination_by structural clause

theorem Statement.isFinite_of_reads (statement : Statement) {result : Statement}
    (reads : (statement.toJson.withNulls.mapNumbers change).statement? = some result) :
    ∀ number ∈ statement.numbers, Decimal.isFinite number = true := by
  match statement with
  | .mk clause span =>
      obtain ⟨_, isClause, _⟩ := by
        simpa [Statement.toJson, mapNumbers, mapFieldNumbers, statement?, clauseIn?,
          Option.bind_eq_some_iff] using reads
      exact clause.isFinite_of_reads isClause
termination_by structural statement

theorem Statement.isFinite_of_readsAll (statements : List Statement) {results : List Statement}
    (reads : statements? (mapAllNumbers change (allWithNulls (Statement.toJsons statements))) =
      some results) :
    ∀ number ∈ Statement.allNumbers statements, Decimal.isFinite number = true := by
  match statements with
  | [] => exact nofun
  | statement :: statements =>
      obtain ⟨_, isFirst, _, areRest, _⟩ := by
        simpa [Statement.toJsons, mapAllNumbers, statements?, Option.bind_eq_some_iff]
          using reads
      exact List.forall_mem_append.2
        ⟨statement.isFinite_of_reads isFirst, Statement.isFinite_of_readsAll statements areRest⟩
termination_by structural statements

end

end Nulls

/-! ### Programs -/

namespace Block

variable {text : String} {block : Block} {change : Float → Float}

theorem fits_of_ofDocument (accepts : ofDocument text = .ok block) :
    block.toJson.Fits Json.nestingLimit := by
  unfold ofDocument at accepts
  split at accepts
  · cases accepts
  · next fields reads =>
      split at accepts
      · next statements isStatements =>
          cases accepts
          obtain ⟨inner, room, inside⟩ := (read?_fits reads).exists_room_object
          rw [room]
          exact (fits_object _).2 ⟨statementsIn?_fit fields inside isStatements, trivial⟩
      · cases accepts
  · cases accepts

/-- A program that fits the limit on nesting is read as the program again, with each number replaced
by what its own text is read as, if all its numbers are finite; otherwise it is no program. -/
theorem ofDocument_documentText_of_fits (fits : block.toJson.Fits Json.nestingLimit)
    (rereads : ∀ number ∈ block.numbers, RereadsIfFinite number (change number)) :
    ofDocument block.documentText =
      if ∀ number ∈ block.numbers, Decimal.isFinite number = true then
        .ok (block.mapNumbers change)
      else refuse .invalidProgram := by
  have reads := read?_text fits.withNulls (block.sound_toJson rereads).readable
  rw [text_withNulls] at reads
  rw [ofDocument, documentText, reads]
  obtain ⟨statements⟩ := block
  by_cases finite : ∀ number ∈ (mk statements).numbers, Decimal.isFinite number = true
  · have decodes :
        statementsIn? [("stmts", .list (mapAllNumbers change (Statement.toJsons statements)))] =
          some (Statement.mapAllNumbers change statements) := by
      rw [statementsIn?, if_pos rfl, statementList?, statements?_toJsons]
    rw [if_pos finite, ((mk statements).sound_toJson finite).withNulls_eq]
    simp only [toJson, Json.mapNumbers, mapFieldNumbers, decodes]
    rfl
  · have fails : statements? (mapAllNumbers change
        (allWithNulls (Statement.toJsons statements))) = none :=
      Option.eq_none_iff_forall_ne_some.2 fun results reads =>
        finite (Statement.isFinite_of_readsAll statements reads)
    have decodes : statementsIn? [("stmts", .list (mapAllNumbers change
        (allWithNulls (Statement.toJsons statements))))] = none := by
      rw [statementsIn?, if_pos rfl, statementList?, fails]
    rw [if_neg finite]
    simp only [toJson, withNulls_object, fieldsWithNulls_cons, fieldsWithNulls_nil,
      withNulls_list, Json.mapNumbers, mapFieldNumbers, decodes]

/-- A program that was read from a document is written as a document that is read as the program
again, with each number replaced by what its own text is read as. -/
theorem ofDocument_documentText (accepts : ofDocument text = .ok block)
    (rereads : ∀ number ∈ block.numbers, Rereads number (change number)) :
    ofDocument block.documentText = .ok (block.mapNumbers change) := by
  rw [ofDocument_documentText_of_fits (fits_of_ofDocument accepts)
    fun number member _ => rereads number member]
  exact if_pos fun number member => (rereads number member).isFinite

end Block

end PointFree
