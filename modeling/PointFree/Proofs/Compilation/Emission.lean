import PointFree.Proofs.Compilation.Lowering

/-!
Contract: what is emitted, and that it is a lowering.

A part of a tree unrolls to what its own parts do and an instruction. This is said once, and
`emit` is opened only where it is shown to agree; every other fact about what is emitted goes by
the cases of `Unrolls`.

When the instructions of a part have been filled in, the part lowers to them.
-/

namespace PointFree

/-! ### What is emitted -/

theorem Surrounding.resolve_of_address {surrounding : Surrounding} {word : String}
    {address : Nat × Nat} (found : surrounding.address word = .ok address) :
    Scope.resolve? word surrounding.scopes = some address := by
  rw [Surrounding.address] at found
  split at found
  · next resolved =>
      cases found
      exact resolved
  · cases found

theorem Surrounding.lookup_of_constant {surrounding : Surrounding} {word : String} {place : Nat}
    (found : surrounding.constant word = .ok place) :
    surrounding.vocabulary.lookup word = some place := by
  rw [Surrounding.constant] at found
  split at found
  · next known =>
      cases found
      exact known
  · cases found

mutual

/-- An expression unrolls to what its operands do, the last one first, and its own
instruction. -/
inductive Expression.Unrolls (surrounding : Surrounding) : Expression → List Emitted → Prop where
  | number (amount : Float) : Unrolls surrounding (.number amount) [.literal (.number amount)]
  | character (letter : Char) :
      Unrolls surrounding (.character letter) [.literal (.character letter)]
  | string (text : String) : Unrolls surrounding (.string text) [.literal (.ofString text)]
  | name {word : String} {address : Nat × Nat} :
      Scope.resolve? word surrounding.scopes = some address →
      Unrolls surrounding (.name word) [.instruction (.load address.1 address.2)]
  | primitive {word : String} {place : Nat} :
      surrounding.vocabulary.lookup word = some place →
      Unrolls surrounding (.primitive word) [.instruction (.push place)]
  | implicit (variant : Implicit) :
      Unrolls surrounding (.implicit variant) [.instruction (.load 0 variant.slot)]
  | list {items : List Expression} {emitted : List Emitted} :
      UnrollsAll surrounding items emitted →
      Unrolls surrounding (.list items) (emitted ++ [.instruction (.list items.length)])
  | call {function right : Expression} {argument operator : List Emitted} :
      Unrolls surrounding right argument → Unrolls surrounding function operator →
      Unrolls surrounding (.call function right) (argument ++ operator ++ [.instruction .call])
  | callBoth {function left right : Expression} {second operator first : List Emitted} :
      Unrolls surrounding right second → Unrolls surrounding function operator →
      Unrolls surrounding left first →
      Unrolls surrounding (.callBoth function left right)
        (second ++ operator ++ first ++ [.instruction .callBoth])
  | modifyOne {glyph : Char} {modifier : OneModifier} {operand : Expression}
      {emitted : List Emitted} :
      OneModifier.ofGlyph? glyph = some modifier → Unrolls surrounding operand emitted →
      Unrolls surrounding (.modifyOne glyph operand)
        (emitted ++ [.instruction (.modifyOne modifier.code)])
  | modifyTwo {glyph : Char} {modifier : TwoModifier} {left right : Expression}
      {second first : List Emitted} :
      TwoModifier.ofGlyph? glyph = some modifier → Unrolls surrounding right second →
      Unrolls surrounding left first →
      Unrolls surrounding (.modifyTwo glyph left right)
        (second ++ first ++ [.instruction (.modifyTwo modifier.code)])
  | atop {left right : Expression} {second first : List Emitted} :
      Unrolls surrounding right second → Unrolls surrounding left first →
      Unrolls surrounding (.atop left right) (second ++ first ++ [.instruction .atop])
  | fork {left middle right : Expression} {third second first : List Emitted} :
      Unrolls surrounding right third → Unrolls surrounding middle second →
      Unrolls surrounding left first →
      Unrolls surrounding (.fork left middle right)
        (third ++ second ++ first ++ [.instruction .fork])
  | block (body : Block) : Unrolls surrounding (.block body) [.closure body]

inductive Expression.UnrollsAll (surrounding : Surrounding) :
    List Expression → List Emitted → Prop where
  | nil : UnrollsAll surrounding [] []
  | cons {item : Expression} {items : List Expression} {first rest : List Emitted} :
      Unrolls surrounding item first → UnrollsAll surrounding items rest →
      UnrollsAll surrounding (item :: items) (first ++ rest)

end

mutual

inductive Target.Unrolls (scopes : List Scope) : Target → List Emitted → Prop where
  | name {word : String} {address : Nat × Nat} :
      Scope.resolve? word scopes = some address →
      Unrolls scopes (.name word) [.instruction (.place address.1 address.2)]
  | list {targets : List Target} {emitted : List Emitted} :
      UnrollsAll scopes targets emitted →
      Unrolls scopes (.list targets) (emitted ++ [.instruction (.places targets.length)])

inductive Target.UnrollsAll (scopes : List Scope) : List Target → List Emitted → Prop where
  | nil : UnrollsAll scopes [] []
  | cons {target : Target} {targets : List Target} {first rest : List Emitted} :
      Unrolls scopes target first → UnrollsAll scopes targets rest →
      UnrollsAll scopes (target :: targets) (first ++ rest)

end

/-- What a statement that is no guard unrolls to before its last instruction, and the scope
after it. -/
inductive Clause.Unrolls (vocabulary : Vocabulary) (outer : List Scope) (scope : Scope) :
    Clause → List Emitted → Scope → Prop where
  | expression {result : Expression} {emitted : List Emitted} :
      result.Unrolls ⟨vocabulary, scope :: outer⟩ emitted →
      Unrolls vocabulary outer scope (.expression result) emitted scope
  | define {target : Target} {value : Expression} {emitted places : List Emitted}
      {extended : Scope} :
      value.Unrolls ⟨vocabulary, scope :: outer⟩ emitted →
      scope.declareAll target.names = .ok extended → target.Unrolls (extended :: outer) places →
      Unrolls vocabulary outer scope (.define target value)
        (emitted ++ places ++ [.instruction .define]) extended
  | assign {target : Target} {value : Expression} {emitted places : List Emitted} :
      value.Unrolls ⟨vocabulary, scope :: outer⟩ emitted →
      target.Unrolls (scope :: outer) places →
      Unrolls vocabulary outer scope (.assign target value)
        (emitted ++ places ++ [.instruction .assign]) scope
  | update {name : String} {function : Expression} {operator places : List Emitted} :
      function.Unrolls ⟨vocabulary, scope :: outer⟩ operator →
      (Target.name name).Unrolls (scope :: outer) places →
      Unrolls vocabulary outer scope (.modify name function none)
        (operator ++ places ++ [.instruction .update]) scope
  | updateWith {name : String} {function argument : Expression}
      {operand operator places : List Emitted} :
      argument.Unrolls ⟨vocabulary, scope :: outer⟩ operand →
      function.Unrolls ⟨vocabulary, scope :: outer⟩ operator →
      (Target.name name).Unrolls (scope :: outer) places →
      Unrolls vocabulary outer scope (.modify name function (some argument))
        (operand ++ operator ++ places ++ [.instruction .updateWith]) scope

section Unrolling

variable {surrounding : Surrounding}

mutual

theorem Expression.unrolls_of_emit : ∀ {expression : Expression} {emitted : List Emitted},
    expression.emit surrounding = .ok emitted → expression.Unrolls surrounding emitted
  | .number amount, _, emits => by
      cases emits
      exact .number amount
  | .character letter, _, emits => by
      cases emits
      exact .character letter
  | .string text, _, emits => by
      cases emits
      exact .string text
  | .name word, _, emits => by
      obtain ⟨address, found, done⟩ := Outcome.bind_eq_ok.1 emits
      cases done
      exact .name (Surrounding.resolve_of_address found)
  | .primitive word, _, emits => by
      obtain ⟨place, found, done⟩ := Outcome.bind_eq_ok.1 emits
      cases done
      exact .primitive (Surrounding.lookup_of_constant found)
  | .implicit variant, _, emits => by
      cases emits
      exact .implicit variant
  | .list items, _, emits => by
      obtain ⟨emitted, itemsEmit, done⟩ := Outcome.bind_eq_ok.1 emits
      cases done
      exact .list (Expression.unrolls_of_emitAll itemsEmit)
  | .call function right, _, emits => by
      obtain ⟨argument, rightEmits, emits⟩ := Outcome.bind_eq_ok.1 emits
      obtain ⟨operator, functionEmits, done⟩ := Outcome.bind_eq_ok.1 emits
      cases done
      exact .call (Expression.unrolls_of_emit rightEmits) (Expression.unrolls_of_emit functionEmits)
  | .callBoth function left right, _, emits => by
      obtain ⟨second, rightEmits, emits⟩ := Outcome.bind_eq_ok.1 emits
      obtain ⟨operator, functionEmits, emits⟩ := Outcome.bind_eq_ok.1 emits
      obtain ⟨first, leftEmits, done⟩ := Outcome.bind_eq_ok.1 emits
      cases done
      exact .callBoth (Expression.unrolls_of_emit rightEmits)
        (Expression.unrolls_of_emit functionEmits) (Expression.unrolls_of_emit leftEmits)
  | .modifyOne glyph operand, _, emits => by
      rw [Expression.emit] at emits
      split at emits
      · cases emits
      · next modifier found =>
          obtain ⟨emitted, operandEmits, done⟩ := Outcome.bind_eq_ok.1 emits
          cases done
          exact .modifyOne found (Expression.unrolls_of_emit operandEmits)
  | .modifyTwo glyph left right, _, emits => by
      rw [Expression.emit] at emits
      split at emits
      · cases emits
      · next modifier found =>
          obtain ⟨second, rightEmits, emits⟩ := Outcome.bind_eq_ok.1 emits
          obtain ⟨first, leftEmits, done⟩ := Outcome.bind_eq_ok.1 emits
          cases done
          exact .modifyTwo found (Expression.unrolls_of_emit rightEmits)
            (Expression.unrolls_of_emit leftEmits)
  | .atop left right, _, emits => by
      obtain ⟨second, rightEmits, emits⟩ := Outcome.bind_eq_ok.1 emits
      obtain ⟨first, leftEmits, done⟩ := Outcome.bind_eq_ok.1 emits
      cases done
      exact .atop (Expression.unrolls_of_emit rightEmits) (Expression.unrolls_of_emit leftEmits)
  | .fork left middle right, _, emits => by
      obtain ⟨third, rightEmits, emits⟩ := Outcome.bind_eq_ok.1 emits
      obtain ⟨second, middleEmits, emits⟩ := Outcome.bind_eq_ok.1 emits
      obtain ⟨first, leftEmits, done⟩ := Outcome.bind_eq_ok.1 emits
      cases done
      exact .fork (Expression.unrolls_of_emit rightEmits) (Expression.unrolls_of_emit middleEmits)
        (Expression.unrolls_of_emit leftEmits)
  | .block body, _, emits => by
      cases emits
      exact .block body

theorem Expression.unrolls_of_emitAll : ∀ {items : List Expression} {emitted : List Emitted},
    Expression.emitAll surrounding items = .ok emitted →
    Expression.UnrollsAll surrounding items emitted
  | [], _, emits => by
      cases emits
      exact .nil
  | item :: items, _, emits => by
      obtain ⟨first, firstEmits, emits⟩ := Outcome.bind_eq_ok.1 emits
      obtain ⟨rest, restEmit, done⟩ := Outcome.bind_eq_ok.1 emits
      cases done
      exact .cons (Expression.unrolls_of_emit firstEmits) (Expression.unrolls_of_emitAll restEmit)

end

mutual

theorem Target.unrolls_of_emit : ∀ {target : Target} {emitted : List Emitted},
    target.emit surrounding = .ok emitted → target.Unrolls surrounding.scopes emitted
  | .name word, _, emits => by
      obtain ⟨address, found, done⟩ := Outcome.bind_eq_ok.1 emits
      cases done
      exact .name (Surrounding.resolve_of_address found)
  | .list targets, _, emits => by
      obtain ⟨emitted, targetsEmit, done⟩ := Outcome.bind_eq_ok.1 emits
      cases done
      exact .list (Target.unrolls_of_emitAll targetsEmit)

theorem Target.unrolls_of_emitAll : ∀ {targets : List Target} {emitted : List Emitted},
    Target.emitAll surrounding targets = .ok emitted →
    Target.UnrollsAll surrounding.scopes targets emitted
  | [], _, emits => by
      cases emits
      exact .nil
  | target :: targets, _, emits => by
      obtain ⟨first, firstEmits, emits⟩ := Outcome.bind_eq_ok.1 emits
      obtain ⟨rest, restEmit, done⟩ := Outcome.bind_eq_ok.1 emits
      cases done
      exact .cons (Target.unrolls_of_emit firstEmits) (Target.unrolls_of_emitAll restEmit)

end

variable {vocabulary : Vocabulary} {outer : List Scope} {scope extended : Scope} {last : Bool}
variable {emitted : List Emitted}

/-- A statement is emitted as what it unrolls to and the instruction that ends it, unless it is
a guard, which has more than one expression and stands before other statements. -/
theorem Clause.unrolls_of_emit {clause : Clause}
    (emits : clause.emit vocabulary outer scope last = .ok (emitted, extended)) :
    (∃ body, emitted = body ++ [closing last] ∧
        clause.Unrolls vocabulary outer scope body extended) ∨
      ∃ test fallback tested otherwise, clause = .guard test fallback ∧ last = false ∧
        extended = scope ∧
        emitted = tested ++ [.instruction .test] ++ otherwise ++ [.instruction .fallback] ∧
        test.Unrolls ⟨vocabulary, scope :: outer⟩ tested ∧
        fallback.Unrolls ⟨vocabulary, scope :: outer⟩ otherwise := by
  -- the model writes the last two instructions in one list
  have two (body : List Emitted) (instruction : Instruction) :
      body ++ [.instruction instruction, closing last] =
        body ++ [.instruction instruction] ++ [closing last] :=
    (List.append_assoc _ [_] [_]).symm
  cases clause with
  | expression result =>
      obtain ⟨body, resultEmits, done⟩ := Outcome.bind_eq_ok.1 emits
      cases done
      exact .inl ⟨body, rfl, .expression (Expression.unrolls_of_emit resultEmits)⟩
  | define target value =>
      obtain ⟨_, _, emits⟩ := Outcome.bind_eq_ok.1 emits
      obtain ⟨body, valueEmits, emits⟩ := Outcome.bind_eq_ok.1 emits
      obtain ⟨extended, declared, emits⟩ := Outcome.bind_eq_ok.1 emits
      obtain ⟨places, targetEmits, done⟩ := Outcome.bind_eq_ok.1 emits
      cases done
      exact .inl ⟨_, two _ _, .define (Expression.unrolls_of_emit valueEmits) declared
        (Target.unrolls_of_emit targetEmits)⟩
  | assign target value =>
      obtain ⟨_, _, emits⟩ := Outcome.bind_eq_ok.1 emits
      obtain ⟨body, valueEmits, emits⟩ := Outcome.bind_eq_ok.1 emits
      obtain ⟨places, targetEmits, done⟩ := Outcome.bind_eq_ok.1 emits
      cases done
      exact .inl ⟨_, two _ _, .assign (Expression.unrolls_of_emit valueEmits)
        (Target.unrolls_of_emit targetEmits)⟩
  | modify name function argument =>
      cases argument with
      | none =>
          obtain ⟨operator, functionEmits, emits⟩ := Outcome.bind_eq_ok.1 emits
          obtain ⟨places, targetEmits, done⟩ := Outcome.bind_eq_ok.1 emits
          cases done
          exact .inl ⟨_, two _ _, .update (Expression.unrolls_of_emit functionEmits)
            (Target.unrolls_of_emit targetEmits)⟩
      | some argument =>
          obtain ⟨operand, argumentEmits, emits⟩ := Outcome.bind_eq_ok.1 emits
          obtain ⟨operator, functionEmits, emits⟩ := Outcome.bind_eq_ok.1 emits
          obtain ⟨places, targetEmits, done⟩ := Outcome.bind_eq_ok.1 emits
          cases done
          exact .inl ⟨_, two _ _, .updateWith (Expression.unrolls_of_emit argumentEmits)
            (Expression.unrolls_of_emit functionEmits) (Target.unrolls_of_emit targetEmits)⟩
  | guard test fallback =>
      cases last with
      | true => cases emits
      | false =>
          obtain ⟨tested, testEmits, emits⟩ := Outcome.bind_eq_ok.1 emits
          obtain ⟨otherwise, fallbackEmits, done⟩ := Outcome.bind_eq_ok.1 emits
          cases done
          exact .inr ⟨test, fallback, tested, otherwise, rfl, rfl, rfl, rfl,
            Expression.unrolls_of_emit testEmits, Expression.unrolls_of_emit fallbackEmits⟩

theorem Outcome.eq_ok_of_within {α : Type} {span : Option Span} {outcome : Outcome α} {result : α}
    (ended : Outcome.within span outcome = .ok result) : outcome = .ok result := by
  cases outcome with
  | ok value => exact ended
  | error failure => cases ended

/-- Statements are emitted one after the other. -/
theorem Statement.emitAll_cons_eq_ok {statement : Statement} {rest : List Statement}
    {located : List Located} {whole : Scope}
    (emits : Statement.emitAll vocabulary outer scope (statement :: rest) =
      .ok (located, whole)) :
    ∃ emitted extended others,
      statement.clause.emit vocabulary outer scope rest.isEmpty = .ok (emitted, extended) ∧
      Statement.emitAll vocabulary outer extended rest = .ok (others, whole) ∧
      located = emitted.map (·, statement.span) ++ others := by
  obtain ⟨⟨emitted, extended⟩, clauseEmits, emits⟩ := Outcome.bind_eq_ok.1 emits
  obtain ⟨⟨others, whole⟩, restEmit, done⟩ := Outcome.bind_eq_ok.1 emits
  cases done
  exact ⟨emitted, extended, others, Outcome.eq_ok_of_within clauseEmits, restEmit, rfl⟩

end Unrolling

/-! ### Filling in -/

theorem Vocabulary.value?_of_lookup {vocabulary : Vocabulary} {word : String} {place : Nat}
    (known : vocabulary.lookup word = some place) :
    ∃ value, vocabulary.value? word = some value ∧ vocabulary.values[place]? = some value := by
  obtain ⟨inside, holds, before⟩ := Array.findIdx?_eq_some_iff_getElem.1 known
  refine ⟨vocabulary.entries[place].2, ?_, ?_⟩
  · have found : (vocabulary.entries.find? fun entry => entry.1 == word) =
        some vocabulary.entries[place] :=
      Array.find?_eq_some_iff_getElem.2 ⟨holds, place, inside, rfl, fun index earlier => by
        simpa using before index earlier⟩
    rw [Vocabulary.value?, found]
    rfl
  · rw [Vocabulary.values, Array.getElem?_map, Array.getElem?_eq_getElem inside]
    rfl

section Filling

variable {constants : Array Value} {closes : Nat → Block → Prop} {code : List Instruction}

theorem Fills.append_left {first second : List Emitted}
    (fills : List.Forall₂ (Fills constants closes) (first ++ second) code) :
    ∃ before after, code = before ++ after ∧
      List.Forall₂ (Fills constants closes) first before ∧
      List.Forall₂ (Fills constants closes) second after := by
  refine ⟨code.take first.length, code.drop first.length, (List.take_append_drop _ _).symm, ?_, ?_⟩
  · exact (List.forall₂_take_append code first second fills.flip).flip
  · exact (List.forall₂_drop_append code first second fills.flip).flip

theorem Fills.eq_singleton {instruction : Instruction}
    (fills : List.Forall₂ (Fills constants closes) [.instruction instruction] code) :
    code = [instruction] := by
  cases fills with
  | cons first rest =>
      cases first
      cases rest
      rfl

theorem Fills.eq_push {value : Value}
    (fills : List.Forall₂ (Fills constants closes) [.literal value] code) :
    ∃ place : Nat, code = [.push place] ∧ constants[place]? = some value := by
  cases fills with
  | cons first rest =>
      cases first with
      | literal found =>
          cases rest
          exact ⟨_, rfl, found⟩

theorem Fills.eq_closure {body : Block}
    (fills : List.Forall₂ (Fills constants closes) [.closure body] code) :
    ∃ number : Nat, code = [.closure number] ∧ closes number body := by
  cases fills with
  | cons first rest =>
      cases first with
      | closure numbered =>
          cases rest
          exact ⟨_, rfl, numbered⟩

/-- What is emitted before a last instruction is filled in before it. -/
theorem Fills.concat {emitted : List Emitted} {instruction : Instruction}
    (fills : List.Forall₂ (Fills constants closes) (emitted ++ [.instruction instruction]) code) :
    ∃ before, code = before ++ [instruction] ∧
      List.Forall₂ (Fills constants closes) emitted before := by
  obtain ⟨before, after, rfl, first, last⟩ := Fills.append_left fills
  cases Fills.eq_singleton last
  exact ⟨before, rfl, first⟩

end Filling

variable {site : Site} {scope : Scope}

/-- The constants of a program begin with its vocabulary. -/
def Site.Known (site : Site) : Prop :=
  ∀ (place : Nat) (value : Value), site.vocabulary.values[place]? = some value →
    site.constants[place]? = some value

mutual

theorem Expression.Unrolls.lowers (known : site.Known) : ∀ {expression : Expression}
    {emitted : List Emitted} {code : List Instruction},
    expression.Unrolls ⟨site.vocabulary, scope :: site.outer⟩ emitted →
    List.Forall₂ (Fills site.constants site.closes) emitted code →
    ∃ node, expression.Lowers site scope code node
  | _, _, _, .number _, fills => by
      obtain ⟨place, rfl, found⟩ := Fills.eq_push fills
      exact ⟨_, .number found⟩
  | _, _, _, .character _, fills => by
      obtain ⟨place, rfl, found⟩ := Fills.eq_push fills
      exact ⟨_, .character found⟩
  | _, _, _, .string _, fills => by
      obtain ⟨place, rfl, found⟩ := Fills.eq_push fills
      exact ⟨_, .string found⟩
  | _, _, _, .name resolves, fills => by
      cases Fills.eq_singleton fills
      exact ⟨_, .name resolves⟩
  | _, _, _, .primitive found, fills => by
      cases Fills.eq_singleton fills
      obtain ⟨value, named, stored⟩ := Vocabulary.value?_of_lookup found
      exact ⟨_, .primitive named (known _ value stored)⟩
  | _, _, _, .implicit variant, fills => by
      cases Fills.eq_singleton fills
      exact ⟨_, .implicit variant⟩
  | _, _, _, .list items, fills => by
      obtain ⟨code, rfl, parts⟩ := Fills.concat fills
      obtain ⟨nodes, lowers⟩ := items.lowers known parts
      exact ⟨_, .list lowers⟩
  | _, _, _, .call right function, fills => by
      obtain ⟨code, rfl, parts⟩ := Fills.concat fills
      obtain ⟨rightCode, functionCode, rfl, rightParts, functionParts⟩ := Fills.append_left parts
      obtain ⟨rightNode, rightLowers⟩ := right.lowers known rightParts
      obtain ⟨functionNode, functionLowers⟩ := function.lowers known functionParts
      exact ⟨_, .call rightLowers functionLowers⟩
  | _, _, _, .callBoth right function left, fills => by
      obtain ⟨code, rfl, parts⟩ := Fills.concat fills
      obtain ⟨code, leftCode, rfl, parts, leftParts⟩ := Fills.append_left parts
      obtain ⟨rightCode, functionCode, rfl, rightParts, functionParts⟩ := Fills.append_left parts
      obtain ⟨rightNode, rightLowers⟩ := right.lowers known rightParts
      obtain ⟨functionNode, functionLowers⟩ := function.lowers known functionParts
      obtain ⟨leftNode, leftLowers⟩ := left.lowers known leftParts
      exact ⟨_, .callBoth rightLowers functionLowers leftLowers⟩
  | _, _, _, .modifyOne found operand, fills => by
      obtain ⟨code, rfl, parts⟩ := Fills.concat fills
      obtain ⟨node, lowers⟩ := operand.lowers known parts
      exact ⟨_, .modifyOne found lowers⟩
  | _, _, _, .modifyTwo found right left, fills => by
      obtain ⟨code, rfl, parts⟩ := Fills.concat fills
      obtain ⟨rightCode, leftCode, rfl, rightParts, leftParts⟩ := Fills.append_left parts
      obtain ⟨rightNode, rightLowers⟩ := right.lowers known rightParts
      obtain ⟨leftNode, leftLowers⟩ := left.lowers known leftParts
      exact ⟨_, .modifyTwo found rightLowers leftLowers⟩
  | _, _, _, .atop right left, fills => by
      obtain ⟨code, rfl, parts⟩ := Fills.concat fills
      obtain ⟨rightCode, leftCode, rfl, rightParts, leftParts⟩ := Fills.append_left parts
      obtain ⟨rightNode, rightLowers⟩ := right.lowers known rightParts
      obtain ⟨leftNode, leftLowers⟩ := left.lowers known leftParts
      exact ⟨_, .atop rightLowers leftLowers⟩
  | _, _, _, .fork right middle left, fills => by
      obtain ⟨code, rfl, parts⟩ := Fills.concat fills
      obtain ⟨code, leftCode, rfl, parts, leftParts⟩ := Fills.append_left parts
      obtain ⟨rightCode, middleCode, rfl, rightParts, middleParts⟩ := Fills.append_left parts
      obtain ⟨rightNode, rightLowers⟩ := right.lowers known rightParts
      obtain ⟨middleNode, middleLowers⟩ := middle.lowers known middleParts
      obtain ⟨leftNode, leftLowers⟩ := left.lowers known leftParts
      exact ⟨_, .fork rightLowers middleLowers leftLowers⟩
  | _, _, _, .block _, fills => by
      obtain ⟨number, rfl, numbered⟩ := Fills.eq_closure fills
      exact ⟨_, .block numbered⟩

theorem Expression.UnrollsAll.lowers (known : site.Known) : ∀ {items : List Expression}
    {emitted : List Emitted} {code : List Instruction},
    Expression.UnrollsAll ⟨site.vocabulary, scope :: site.outer⟩ items emitted →
    List.Forall₂ (Fills site.constants site.closes) emitted code →
    ∃ nodes, Expression.LowersAll site scope items code nodes
  | _, _, _, .nil, fills => by
      cases fills
      exact ⟨_, .nil⟩
  | _, _, _, .cons item rest, fills => by
      obtain ⟨code, codes, rfl, firstParts, restParts⟩ := Fills.append_left fills
      obtain ⟨node, lowers⟩ := item.lowers known firstParts
      obtain ⟨nodes, others⟩ := rest.lowers known restParts
      exact ⟨_, .cons lowers others⟩

end

section Targets

variable {scopes : List Scope} {constants : Array Value} {closes : Nat → Block → Prop}

mutual

theorem Target.Unrolls.lowers : ∀ {target : Target} {emitted : List Emitted}
    {code : List Instruction}, target.Unrolls scopes emitted →
    List.Forall₂ (Fills constants closes) emitted code → ∃ place, target.Lowers scopes code place
  | _, _, _, .name resolves, fills => by
      cases Fills.eq_singleton fills
      exact ⟨_, .name resolves⟩
  | _, _, _, .list targets, fills => by
      obtain ⟨code, rfl, parts⟩ := Fills.concat fills
      obtain ⟨places, lowers⟩ := targets.lowers parts
      exact ⟨_, .list lowers⟩

theorem Target.UnrollsAll.lowers : ∀ {targets : List Target} {emitted : List Emitted}
    {code : List Instruction}, Target.UnrollsAll scopes targets emitted →
    List.Forall₂ (Fills constants closes) emitted code →
    ∃ places, Target.LowersAll scopes targets code places
  | _, _, _, .nil, fills => by
      cases fills
      exact ⟨_, .nil⟩
  | _, _, _, .cons target rest, fills => by
      obtain ⟨code, codes, rfl, firstParts, restParts⟩ := Fills.append_left fills
      obtain ⟨place, lowers⟩ := target.lowers firstParts
      obtain ⟨places, others⟩ := rest.lowers restParts
      exact ⟨_, .cons lowers others⟩

end

end Targets

/-! ### Statements -/

/-- The instruction that ends a statement. -/
def ending (last : Bool) : Instruction :=
  if last then .finish else .discard

theorem Clause.Unrolls.lowers (known : site.Known) {clause : Clause} {emitted : List Emitted}
    {extended : Scope} {code : List Instruction}
    (unrolls : clause.Unrolls site.vocabulary site.outer scope emitted extended)
    (fills : List.Forall₂ (Fills site.constants site.closes) emitted code) :
    ∃ node, clause.Lowers site scope extended code node := by
  cases unrolls with
  | expression result =>
      obtain ⟨node, lowers⟩ := result.lowers known fills
      exact ⟨_, .expression lowers⟩
  | define value declared target =>
      obtain ⟨code, rfl, parts⟩ := Fills.concat fills
      obtain ⟨valueCode, placeCode, rfl, valueParts, placeParts⟩ := Fills.append_left parts
      obtain ⟨node, valueLowers⟩ := value.lowers known valueParts
      obtain ⟨place, targetLowers⟩ := target.lowers placeParts
      exact ⟨_, .define valueLowers declared targetLowers⟩
  | assign value target =>
      obtain ⟨code, rfl, parts⟩ := Fills.concat fills
      obtain ⟨valueCode, placeCode, rfl, valueParts, placeParts⟩ := Fills.append_left parts
      obtain ⟨node, valueLowers⟩ := value.lowers known valueParts
      obtain ⟨place, targetLowers⟩ := target.lowers placeParts
      exact ⟨_, .assign valueLowers targetLowers⟩
  | update function target =>
      obtain ⟨code, rfl, parts⟩ := Fills.concat fills
      obtain ⟨functionCode, placeCode, rfl, functionParts, placeParts⟩ := Fills.append_left parts
      obtain ⟨node, functionLowers⟩ := function.lowers known functionParts
      obtain ⟨place, targetLowers⟩ := target.lowers placeParts
      exact ⟨_, .update functionLowers targetLowers⟩
  | updateWith argument function target =>
      obtain ⟨code, rfl, parts⟩ := Fills.concat fills
      obtain ⟨code, placeCode, rfl, parts, placeParts⟩ := Fills.append_left parts
      obtain ⟨argumentCode, functionCode, rfl, argumentParts, functionParts⟩ :=
        Fills.append_left parts
      obtain ⟨argumentNode, argumentLowers⟩ := argument.lowers known argumentParts
      obtain ⟨functionNode, functionLowers⟩ := function.lowers known functionParts
      obtain ⟨place, targetLowers⟩ := target.lowers placeParts
      exact ⟨_, .updateWith argumentLowers functionLowers targetLowers⟩

/-- A statement lowers to what is emitted before its last instruction, unless it is
a guard, which has more than one expression. -/
theorem Clause.emit_lowers (known : site.Known) {clause : Clause} {last : Bool}
    {emitted : List Emitted} {extended : Scope} {code : List Instruction}
    (emits : clause.emit site.vocabulary site.outer scope last = .ok (emitted, extended))
    (fills : List.Forall₂ (Fills site.constants site.closes) emitted code) :
    (∃ body node, code = body ++ [ending last] ∧ clause.Lowers site scope extended body node) ∨
      ∃ test fallback testCode fallbackCode testNode fallbackNode,
        clause = .guard test fallback ∧ last = false ∧ extended = scope ∧
        code = testCode ++ [.test] ++ fallbackCode ++ [.fallback] ∧
        test.Lowers site scope testCode testNode ∧
        fallback.Lowers site scope fallbackCode fallbackNode := by
  obtain ⟨body, rfl, unrolls⟩ | ⟨test, fallback, tested, otherwise, rfl, rfl, rfl, rfl,
    testUnrolls, fallbackUnrolls⟩ := Clause.unrolls_of_emit emits
  · obtain ⟨before, rfl, parts⟩ := Fills.concat fills
    obtain ⟨node, lowers⟩ := unrolls.lowers known parts
    exact .inl ⟨before, node, rfl, lowers⟩
  · obtain ⟨code, rfl, parts⟩ := Fills.concat fills
    obtain ⟨code, fallbackCode, rfl, parts, fallbackParts⟩ := Fills.append_left parts
    obtain ⟨testCode, rfl, testParts⟩ := Fills.concat parts
    obtain ⟨testNode, testLowers⟩ := testUnrolls.lowers known testParts
    obtain ⟨fallbackNode, fallbackLowers⟩ := fallbackUnrolls.lowers known fallbackParts
    exact .inr ⟨_, _, _, _, _, _, rfl, rfl, rfl, rfl, testLowers, fallbackLowers⟩

/-- The same with the statement that both belong to. -/
def FillsAt (constants : Array Value) (closes : Nat → Block → Prop) (located : Located)
    (placed : Marked) : Prop :=
  Fills constants closes located.1 placed.1 ∧ located.2 = placed.2

theorem FillsAt.imp {constants constants' : Array Value} {closes closes' : Nat → Block → Prop}
    {located : Located} {placed : Marked}
    (grows : ∀ (place : Nat) (value : Value), constants[place]? = some value →
      constants'[place]? = some value)
    (weaken : ∀ number body, closes number body → closes' number body)
    (fills : FillsAt constants closes located placed) :
    FillsAt constants' closes' located placed := by
  obtain ⟨emitted, span⟩ := located
  obtain ⟨instruction, span'⟩ := placed
  obtain ⟨filled, same⟩ := fills
  refine ⟨?_, same⟩
  cases filled with
  | instruction => exact .instruction _
  | literal found => exact .literal (grows _ _ found)
  | closure numbered => exact .closure (weaken _ _ numbered)

theorem FillsAt.of_map {constants : Array Value} {closes : Nat → Block → Prop} {span : Option Span}
    {emitted : List Emitted} {placed : List Marked}
    (fills : List.Forall₂ (FillsAt constants closes) (emitted.map (·, span)) placed) :
    ∃ code, placed = placedAt span code ∧ List.Forall₂ (Fills constants closes) emitted code := by
  induction emitted generalizing placed with
  | nil =>
      cases fills
      exact ⟨[], rfl, .nil⟩
  | cons first rest inductionHypothesis =>
      cases fills with
      | cons firstFills restFill =>
          obtain ⟨code, rfl, fills⟩ := inductionHypothesis restFill
          obtain ⟨filled, same⟩ := firstFills
          cases same
          exact ⟨_, rfl, .cons filled fills⟩

theorem FillsAt.append_left {constants : Array Value} {closes : Nat → Block → Prop}
    {first second : List Located} {placed : List Marked}
    (fills : List.Forall₂ (FillsAt constants closes) (first ++ second) placed) :
    ∃ before after, placed = before ++ after ∧
      List.Forall₂ (FillsAt constants closes) first before ∧
      List.Forall₂ (FillsAt constants closes) second after := by
  refine ⟨placed.take first.length, placed.drop first.length, (List.take_append_drop _ _).symm,
    ?_, ?_⟩
  · exact (List.forall₂_take_append placed first second fills.flip).flip
  · exact (List.forall₂_drop_append placed first second fills.flip).flip

theorem Statement.emitAll_lowers (known : site.Known) {statements : List Statement}
    {located : List Located} {whole : Scope} {placed : List Marked} (filled : statements ≠ [])
    (emits : Statement.emitAll site.vocabulary site.outer scope statements = .ok (located, whole))
    (fills : List.Forall₂ (FillsAt site.constants site.closes) located placed) :
    ∃ steps, Statement.Lowers site scope statements whole placed steps := by
  induction statements generalizing scope located placed with
  | nil => exact absurd rfl filled
  | cons statement rest inductionHypothesis =>
      obtain ⟨emitted, extended, others, clauseEmits, restEmit, rfl⟩ :=
        Statement.emitAll_cons_eq_ok emits
      obtain ⟨clause, span⟩ := statement
      obtain ⟨before, after, rfl, clauseFills, restFill⟩ := FillsAt.append_left fills
      obtain ⟨code, rfl, clauseParts⟩ := FillsAt.of_map clauseFills
      have lowered := Clause.emit_lowers known clauseEmits clauseParts
      cases rest with
      | nil =>
          cases restEmit
          cases restFill
          rw [List.append_nil]
          obtain ⟨body, node, rfl, lowers⟩ | ⟨_, _, _, _, _, _, _, wrong, _⟩ := lowered
          · exact ⟨_, .finish lowers⟩
          · cases wrong
      | cons next rest =>
          obtain ⟨body, node, rfl, lowers⟩ |
            ⟨_, _, _, _, _, _, rfl, _, rfl, rfl, testLowers, fallbackLowers⟩ := lowered
          · obtain ⟨steps, others⟩ := inductionHypothesis (by simp) restEmit restFill
            exact ⟨_, .evaluate lowers others⟩
          · obtain ⟨steps, others⟩ := inductionHypothesis (by simp) restEmit restFill
            exact ⟨_, .guard testLowers fallbackLowers others⟩

theorem Block.emit_lowers (known : site.Known) {block : Block} {located : List Located}
    {whole : Scope} {placed : List Marked}
    (emits : block.emit site.vocabulary site.outer scope = .ok (located, whole))
    (fills : List.Forall₂ (FillsAt site.constants site.closes) located placed) :
    ∃ steps, block.Lowers site scope whole placed steps := by
  obtain ⟨statements⟩ := block
  cases statements with
  | nil =>
      cases emits
      obtain ⟨code, rfl, parts⟩ :=
        @FillsAt.of_map _ _ none ([.literal .nil] ++ [.instruction .finish]) _ fills
      obtain ⟨pushed, rfl, first⟩ := Fills.concat parts
      obtain ⟨place, rfl, found⟩ := Fills.eq_push first
      exact ⟨_, .empty found⟩
  | cons statement rest =>
      obtain ⟨steps, lowers⟩ :=
        Statement.emitAll_lowers known (List.cons_ne_nil statement rest) emits fills
      exact ⟨_, .statements lowers⟩

end PointFree
