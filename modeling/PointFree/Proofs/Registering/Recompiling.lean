import PointFree.Proofs.Allotment

/-!
Contract: programs compiled again with a larger vocabulary.

A block pushes the words and the literals that its tree spells out, in the order in which they are
evaluated. What it emits depends on the vocabulary by the places of these words alone, so it emits
the same with a vocabulary in which they keep their places. The pool of constants begins with the
vocabulary, and literals are added behind it: all that differs between the two programs is how far
behind the start of the pool the literals stand.
-/

namespace PointFree

/-! ### What is pushed -/

/-- What is pushed from the pool of constants, as it is written. -/
inductive Pushed where
  | word (name : String)
  | literal (value : Value)

namespace Pushed

def literal? : Pushed → Option Value
  | .word _ => none
  | .literal value => some value

/-- The literals, in their order. -/
def pool (pushed : List Pushed) : List Value :=
  pushed.filterMap literal?

/-- The places in the pool: a word has its place in the vocabulary, and each literal the next one
from a place on. -/
def places (vocabulary : Vocabulary) : (next : Nat) → List Pushed → List (Option Nat)
  | _, [] => []
  | next, .word name :: rest => vocabulary.lookup name :: places vocabulary next rest
  | next, .literal _ :: rest => some next :: places vocabulary (next + 1) rest

theorem pool_append (first second : List Pushed) :
    pool (first ++ second) = pool first ++ pool second :=
  List.filterMap_append

theorem places_append (vocabulary : Vocabulary) (next : Nat) (first second : List Pushed) :
    places vocabulary next (first ++ second) =
      places vocabulary next first ++ places vocabulary (next + (pool first).length) second := by
  induction first generalizing next with
  | nil => rfl
  | cons item rest inductionHypothesis =>
      cases item with
      | word name => exact congrArg (_ :: ·) (inductionHypothesis next)
      | literal value =>
          have further : next + (pool (.literal value :: rest)).length =
              next + 1 + (pool rest).length := by
            rw [Nat.add_assoc, Nat.add_comm 1]
            rfl
          rw [further]
          exact congrArg (_ :: ·) (inductionHypothesis (next + 1))

end Pushed

/-- What the expression pushes, where it is a constant. -/
def Expression.pushed? : Expression → Option Pushed
  | .number amount => some (.literal (.number amount))
  | .character letter => some (.literal (.character letter))
  | .string text => some (.literal (.ofString text))
  | .primitive word => some (.word word)
  | _ => none

/-- What some expressions push, which are evaluated in this order. -/
def Expression.pushes (parts : List Expression) : List Pushed :=
  parts.filterMap Expression.pushed?

/-- What the statements push, one after the other. -/
def Statement.pushes (statements : List Statement) : List Pushed :=
  statements.flatMap fun statement => Expression.pushes statement.clause.parts

/-- What the block pushes: without statements, the empty list that it returns. -/
def Block.pushes (block : Block) : List Pushed :=
  if block.statements.isEmpty then [.literal .nil] else Statement.pushes block.statements

/-- What all blocks of a program push, in the order of their numbers. -/
def Block.pushesThroughout (whole : Block) : List Pushed :=
  whole.nestings.flatMap fun nesting => nesting.body.pushes

/-! ### Two runs side by side -/

/-- Where the first run ends well, all that the second one can end with is related to what came of
the first, and it ends well too if there is room. -/
def Outcome.Accompanies {α : Type} (related : α → α → Prop) (room : Prop)
    (outcome outcome' : Outcome α) : Prop :=
  ∀ result, outcome = .ok result → (∀ result', outcome' = .ok result' → related result result') ∧
    (room → ∃ result', outcome' = .ok result')

namespace Outcome.Accompanies

variable {α β : Type} {related : α → α → Prop} {related' : β → β → Prop} {room room' : Prop}
variable {outcome outcome' : Outcome α}

/-- The second run ends well in any case. -/
theorem of_ok (ends : ∀ result, outcome = .ok result →
    ∃ result', outcome' = .ok result' ∧ related result result') :
    Accompanies related room outcome outcome' := by
  intro result ended
  obtain ⟨result', ended', agrees⟩ := ends result ended
  refine ⟨fun other isOther => ?_, fun _ => ⟨result', ended'⟩⟩
  cases ended'.symm.trans isOther
  exact agrees

theorem ok {result result' : α} (agrees : related result result') :
    Accompanies related room (.ok result) (.ok result') :=
  of_ok fun _ ended => ⟨result', rfl, Except.ok.inj ended ▸ agrees⟩

/-- What has nothing to do with the vocabulary ends the same way. -/
theorem self (outcome : Outcome α) : Accompanies (· = ·) room outcome outcome :=
  of_ok fun result ended => ⟨result, ended, rfl⟩

theorem bind {next next' : α → Outcome β} (first : Accompanies related room outcome outcome')
    (rest : ∀ value value', outcome = .ok value → related value value' →
      Accompanies related' room' (next value) (next' value'))
    (less : room' → room) :
    Accompanies related' room' (outcome.bind next) (outcome'.bind next') := by
  intro result ended
  obtain ⟨value, isValue, ended⟩ := Outcome.bind_eq_ok.1 ended
  obtain ⟨agrees, exists'⟩ := first value isValue
  constructor
  · intro result' ended'
    obtain ⟨value', isValue', ended'⟩ := Outcome.bind_eq_ok.1 ended'
    exact (rest value value' isValue (agrees value' isValue') result ended).1 result' ended'
  · intro fits
    obtain ⟨value', isValue'⟩ := exists' (less fits)
    obtain ⟨result', ended'⟩ :=
      (rest value value' isValue (agrees value' isValue') result ended).2 fits
    exact ⟨result', Outcome.bind_eq_ok.2 ⟨value', isValue', ended'⟩⟩

theorem map {change change' : α → β} (first : Accompanies related room outcome outcome')
    (agrees : ∀ value value', related value value' → related' (change value) (change' value')) :
    Accompanies related' room (outcome.map change) (outcome'.map change') := by
  intro result ended
  obtain ⟨value, isValue, rfl⟩ := Outcome.map_eq_ok.1 ended
  obtain ⟨same, exists'⟩ := first value isValue
  constructor
  · intro result' ended'
    obtain ⟨value', isValue', rfl⟩ := Outcome.map_eq_ok.1 ended'
    exact agrees value value' (same value' isValue')
  · intro fits
    obtain ⟨value', isValue'⟩ := exists' fits
    exact ⟨_, Outcome.map_eq_ok.2 ⟨value', isValue', rfl⟩⟩

theorem within (first : Accompanies related room outcome outcome') (span : Option Span) :
    Accompanies related room (Outcome.within span outcome) (Outcome.within span outcome') := by
  intro result ended
  obtain ⟨same, exists'⟩ := first result (Outcome.eq_ok_of_within ended)
  refine ⟨fun result' ended' => same result' (Outcome.eq_ok_of_within ended'), fun fits => ?_⟩
  obtain ⟨result', isResult⟩ := exists' fits
  exact ⟨result', by rw [isResult]; rfl⟩

end Outcome.Accompanies

/-! ### Emission with a larger vocabulary -/

/-- Every word keeps its place. -/
def Vocabulary.Extends (larger vocabulary : Vocabulary) : Prop :=
  ∀ (word : String) (place : Nat), vocabulary.lookup word = some place →
    larger.lookup word = some place

/-- What is emitted for a constant. -/
inductive Emitted.Pushes (vocabulary : Vocabulary) : Emitted → Pushed → Prop where
  | word {name : String} {place : Nat} :
      vocabulary.lookup name = some place →
      Pushes vocabulary (.instruction (.push place)) (.word name)
  | literal (value : Value) : Pushes vocabulary (.literal value) (.literal value)

def Emitted.isPush : Emitted → Bool
  | .instruction (.push _) | .literal _ => true
  | _ => false

/-- All constants that are emitted, in their order. -/
def ArePushes (vocabulary : Vocabulary) (emitted : List Emitted) (pushed : List Pushed) : Prop :=
  List.Forall₂ (Emitted.Pushes vocabulary) (emitted.filter Emitted.isPush) pushed

namespace ArePushes

variable {vocabulary : Vocabulary} {first second : List Emitted} {pushed pushed' : List Pushed}

theorem append (firsts : ArePushes vocabulary first pushed)
    (seconds : ArePushes vocabulary second pushed') :
    ArePushes vocabulary (first ++ second) (pushed ++ pushed') := by
  rw [ArePushes, List.filter_append]
  exact List.rel_append firsts seconds

/-- Other instructions push no constant. -/
theorem concat (firsts : ArePushes vocabulary first pushed) {emitted : Emitted}
    (other : emitted.isPush = false) : ArePushes vocabulary (first ++ [emitted]) pushed := by
  rw [ArePushes, List.filter_append, List.filter_singleton, other]
  exact (List.append_nil _).symm ▸ firsts

/-- What a statement stores in, and what ends it, pushes no constant. -/
theorem close (firsts : ArePushes vocabulary first pushed)
    (places : ArePushes vocabulary second []) {emitted : Emitted} (other : emitted.isPush = false)
    (last : Bool) : ArePushes vocabulary (first ++ second ++ [emitted, closing last]) pushed := by
  have ends : (closing last).isPush = false := by cases last <;> rfl
  have all := ((firsts.append places).concat other).concat ends
  rwa [List.append_assoc _ [emitted], List.append_nil] at all

end ArePushes

/-- The same is emitted with either vocabulary, and it has these constants in it. -/
def Emits {α : Type} (vocabulary : Vocabulary) (emitted : α → List Emitted) (pushed : List Pushed)
    (outcome outcome' : Outcome α) : Prop :=
  Outcome.Accompanies
    (fun result result' => result' = result ∧ ArePushes vocabulary (emitted result) pushed) True
    outcome outcome'

namespace Emits

variable {α β : Type} {vocabulary : Vocabulary} {emitted : α → List Emitted}
variable {emitted' : β → List Emitted} {pushed pushed' : List Pushed} {outcome outcome' : Outcome α}

theorem ok {result : α} (pushes : ArePushes vocabulary (emitted result) pushed) :
    Emits vocabulary emitted pushed (.ok result) (.ok result) :=
  Outcome.Accompanies.ok ⟨rfl, pushes⟩

theorem bind {next next' : α → Outcome β} (first : Emits vocabulary emitted pushed outcome outcome')
    (rest : ∀ result, ArePushes vocabulary (emitted result) pushed →
      Emits vocabulary emitted' pushed' (next result) (next' result)) :
    Emits vocabulary emitted' pushed' (outcome.bind next) (outcome'.bind next') := by
  refine Outcome.Accompanies.bind first ?_ id
  rintro result _ _ ⟨rfl, pushes⟩
  exact rest _ pushes

/-- What has nothing to do with the vocabulary comes first. -/
theorem after {next next' : α → Outcome β}
    (rest : ∀ result, Emits vocabulary emitted' pushed' (next result) (next' result)) :
    Emits vocabulary emitted' pushed' (outcome.bind next) (outcome.bind next') := by
  refine (Outcome.Accompanies.self outcome).bind ?_ id
  rintro result _ _ rfl
  exact rest result

end Emits

theorem Expression.pushes_append (first second : List Expression) :
    pushes (first ++ second) = pushes first ++ pushes second :=
  List.filterMap_append

section Emission

variable {vocabulary larger : Vocabulary} {scopes : List Scope}

mutual

theorem Expression.emits (grows : larger.Extends vocabulary) : ∀ expression : Expression,
    Emits vocabulary id (Expression.pushes expression.parts)
      (expression.emit ⟨vocabulary, scopes⟩) (expression.emit ⟨larger, scopes⟩)
  | .number _ | .character _ | .string _ => .ok (.cons (.literal _) .nil)
  | .name _ => .after fun _ => .ok .nil
  | .primitive word => by
      refine .of_ok fun emitted emits => ?_
      obtain ⟨place, known, done⟩ := Outcome.bind_eq_ok.1 emits
      cases done
      have known := Surrounding.lookup_of_constant known
      have again : Surrounding.constant ⟨larger, scopes⟩ word = .ok place := by
        rw [Surrounding.constant, grows word place known]
      exact ⟨_, Outcome.bind_eq_ok.2 ⟨place, again, rfl⟩, rfl, .cons (.word known) .nil⟩
  | .implicit _ | .block _ => .ok .nil
  | .list items => (Expression.emitsAll grows items).bind fun _ pushes => .ok (pushes.concat rfl)
  | .call function right =>
      (Expression.emits grows right).bind fun _ rights =>
        (Expression.emits grows function).bind fun _ functions => .ok <| by
          change ArePushes _ _ (Expression.pushes (right.parts ++ function.parts))
          rw [Expression.pushes_append]
          exact (rights.append functions).concat rfl
  | .callBoth function left right =>
      (Expression.emits grows right).bind fun _ rights =>
        (Expression.emits grows function).bind fun _ functions =>
          (Expression.emits grows left).bind fun _ lefts => .ok <| by
            change ArePushes _ _ (Expression.pushes (right.parts ++ function.parts ++ left.parts))
            rw [Expression.pushes_append, Expression.pushes_append]
            exact ((rights.append functions).append lefts).concat rfl
  | .modifyOne glyph operand => by
      rw [Expression.emit, Expression.emit]
      cases OneModifier.ofGlyph? glyph with
      | none => exact nofun
      | some modifier =>
          exact (Expression.emits grows operand).bind fun _ pushes => .ok (pushes.concat rfl)
  | .modifyTwo glyph left right => by
      rw [Expression.emit, Expression.emit]
      cases TwoModifier.ofGlyph? glyph with
      | none => exact nofun
      | some modifier =>
          refine (Expression.emits grows right).bind fun _ rights =>
            (Expression.emits grows left).bind fun _ lefts => .ok ?_
          change ArePushes _ _ (Expression.pushes (right.parts ++ left.parts))
          rw [Expression.pushes_append]
          exact (rights.append lefts).concat rfl
  | .atop left right =>
      (Expression.emits grows right).bind fun _ rights =>
        (Expression.emits grows left).bind fun _ lefts => .ok <| by
          change ArePushes _ _ (Expression.pushes (right.parts ++ left.parts))
          rw [Expression.pushes_append]
          exact (rights.append lefts).concat rfl
  | .fork left middle right =>
      (Expression.emits grows right).bind fun _ rights =>
        (Expression.emits grows middle).bind fun _ middles =>
          (Expression.emits grows left).bind fun _ lefts => .ok <| by
            change ArePushes _ _ (Expression.pushes (right.parts ++ middle.parts ++ left.parts))
            rw [Expression.pushes_append, Expression.pushes_append]
            exact ((rights.append middles).append lefts).concat rfl

theorem Expression.emitsAll (grows : larger.Extends vocabulary) : ∀ items : List Expression,
    Emits vocabulary id (Expression.pushes (Expression.partsOfAll items))
      (Expression.emitAll ⟨vocabulary, scopes⟩ items) (Expression.emitAll ⟨larger, scopes⟩ items)
  | [] => .ok .nil
  | item :: items =>
      (Expression.emits grows item).bind fun _ first =>
        (Expression.emitsAll grows items).bind fun _ rest => .ok <| by
          change ArePushes _ _ (Expression.pushes (item.parts ++ Expression.partsOfAll items))
          rw [Expression.pushes_append]
          exact first.append rest

end

mutual

/-- Targets push no constant. -/
theorem Target.emits : ∀ target : Target, Emits vocabulary id []
    (target.emit ⟨vocabulary, scopes⟩) (target.emit ⟨larger, scopes⟩)
  | .name _ => .after fun _ => .ok .nil
  | .list targets => (Target.emitsAll targets).bind fun _ pushes => .ok (pushes.concat rfl)

theorem Target.emitsAll : ∀ targets : List Target, Emits vocabulary id []
    (Target.emitAll ⟨vocabulary, scopes⟩ targets) (Target.emitAll ⟨larger, scopes⟩ targets)
  | [] => .ok .nil
  | target :: targets =>
      (Target.emits target).bind fun _ first =>
        (Target.emitsAll targets).bind fun _ rest => .ok (first.append rest)

end

theorem Clause.emits (grows : larger.Extends vocabulary) (outer : List Scope) (scope : Scope)
    (last : Bool) (clause : Clause) :
    Emits vocabulary Prod.fst (Expression.pushes clause.parts)
      (clause.emit vocabulary outer scope last) (clause.emit larger outer scope last) := by
  rw [parts]
  cases clause with
  | expression result =>
      rw [operands, List.flatMap_singleton]
      exact (Expression.emits grows result).bind fun _ pushes => .ok <|
        pushes.concat (by cases last <;> rfl)
  | define target value =>
      rw [operands, List.flatMap_singleton]
      exact .after fun _ => (Expression.emits grows value).bind fun _ values =>
        .after fun _ => (Target.emits target).bind fun _ places => .ok <|
          values.close places rfl last
  | assign target value =>
      rw [operands, List.flatMap_singleton]
      exact .after fun _ => (Expression.emits grows value).bind fun _ values =>
        (Target.emits target).bind fun _ places => .ok (values.close places rfl last)
  | modify name function argument =>
      cases argument with
      | none =>
          rw [operands, List.flatMap_singleton]
          exact (Expression.emits grows function).bind fun _ functions =>
            (Target.emits _).bind fun _ places => .ok (functions.close places rfl last)
      | some argument =>
          rw [operands, List.flatMap_cons, List.flatMap_singleton, Expression.pushes_append]
          exact (Expression.emits grows argument).bind fun _ arguments =>
            (Expression.emits grows function).bind fun _ functions =>
              (Target.emits _).bind fun _ places => .ok <|
                (arguments.append functions).close places rfl last
  | guard test fallback =>
      rw [operands, List.flatMap_cons, List.flatMap_singleton, Expression.pushes_append]
      cases last with
      | true => rintro _ ⟨⟩
      | false =>
          exact (Expression.emits grows test).bind fun _ tests =>
            (Expression.emits grows fallback).bind fun _ fallbacks => .ok <|
              ((tests.concat rfl).append fallbacks).concat rfl

/-- What is emitted, without the statements it belongs to. -/
def Located.emitted (located : List Located × Scope) : List Emitted :=
  located.1.map Prod.fst

theorem Statement.emitsAll (grows : larger.Extends vocabulary) (outer : List Scope)
    (scope : Scope) (statements : List Statement) :
    Emits vocabulary Located.emitted (Statement.pushes statements)
      (Statement.emitAll vocabulary outer scope statements)
      (Statement.emitAll larger outer scope statements) := by
  induction statements generalizing scope with
  | nil => exact .ok .nil
  | cons statement rest inductionHypothesis =>
      have clause := Clause.emits grows outer scope rest.isEmpty statement.clause
      refine Emits.bind (clause.within statement.span) fun first pushes =>
        (inductionHypothesis first.2).bind fun others more => .ok ?_
      have unmarked : (first.1.map (·, statement.span)).map Prod.fst = first.1 :=
        List.map_map.trans (List.map_id _)
      rw [Located.emitted, List.map_append, unmarked]
      exact pushes.append more

theorem Block.emits (grows : larger.Extends vocabulary) (outer : List Scope) (scope : Scope)
    (block : Block) :
    Emits vocabulary Located.emitted block.pushes (block.emit vocabulary outer scope)
      (block.emit larger outer scope) := by
  obtain ⟨statements⟩ := block
  cases statements with
  | nil => exact .ok (.cons (.literal _) .nil)
  | cons statement rest => exact Statement.emitsAll grows outer scope (statement :: rest)

end Emission

/-! ### Laying down over a larger pool -/

/-- The place in the pool that the instruction pushes from. -/
def Instruction.constant? : Instruction → Option Nat
  | .push index => some index
  | _ => none

/-- The instruction over a pool whose first part has another size. What stands in the first part
stays where it is, and all that stands behind moves with its end. -/
def Instruction.moved (size size' : Nat) : Instruction → Instruction
  | .push index => .push (if index < size then index else index - size + size')
  | other => other

/-- The words spell the instructions. -/
def Spells (words : Array UInt32) (code : List Instruction) : Prop :=
  words.toList = code.flatMap Instruction.words ∧ ∀ instruction ∈ code, instruction.Fits

theorem Spells.concat {words : Array UInt32} {code : List Instruction} {instruction : Instruction}
    (spells : Spells words code) (fits : instruction.Fits) :
    Spells (words ++ instruction.words) (code ++ [instruction]) := by
  refine ⟨?_, List.forall_mem_append.2 ⟨spells.2, List.forall_mem_singleton.2 fits⟩⟩
  rw [Array.toList_appendList, spells.1, List.flatMap_append, List.flatMap_singleton]

/-- Where words begin with two instructions, these are one. -/
theorem Instruction.eq_of_words {first second : Instruction} {rest rest' : List UInt32}
    (fits : first.Fits) (fits' : second.Fits)
    (same : first.words ++ rest = second.words ++ rest') : first = second := by
  have opcodes := congrArg (·.head?.bind fun word => Opcode.ofCode? word.toNat) same
  have operands := congrArg List.tail same
  have opcode : first.opcode = second.opcode :=
    Option.some.inj <| (opcode_of_word first).symm.trans (opcodes.trans (opcode_of_word second))
  have whole := complete_operands fits rest
  rw [opcode] at whole
  exact Option.some.inj <| whole.symm.trans <|
    (congrArg (complete? second.opcode) operands).trans (complete_operands fits' rest')

/-- Words spell no more than one code. -/
theorem Spells.unique {words : Array UInt32} {code code' : List Instruction}
    (spells : Spells words code) (spells' : Spells words code') : code = code' := by
  obtain ⟨isWords, fits⟩ := spells
  obtain ⟨isWords', fits'⟩ := spells'
  have same : code.flatMap Instruction.words = code'.flatMap Instruction.words :=
    isWords.symm.trans isWords'
  clear isWords isWords'
  induction code generalizing code' with
  | nil =>
      cases code' with
      | nil => rfl
      | cons => cases same
  | cons first rest inductionHypothesis =>
      cases code' with
      | nil => cases same
      | cons first' rest' =>
          obtain ⟨firstFits, restFits⟩ := List.forall_mem_cons.1 fits
          obtain ⟨firstFits', restFits'⟩ := List.forall_mem_cons.1 fits'
          rw [List.flatMap_cons, List.flatMap_cons] at same
          obtain rfl := Instruction.eq_of_words firstFits firstFits' same
          rw [inductionHypothesis restFits restFits' (List.append_cancel_left same)]

theorem Instruction.width_moved (size size' : Nat) (instruction : Instruction) :
    (instruction.moved size size').width = instruction.width := by
  cases instruction <;> rfl

/-- The larger vocabulary leaves room for the literals. -/
def Vocabulary.HasRoom (larger : Vocabulary) (pushed : List Pushed) : Prop :=
  larger.size + (Pushed.pool pushed).length ≤ operandLimit

instance (larger : Vocabulary) (pushed : List Pushed) : Decidable (larger.HasRoom pushed) :=
  inferInstanceAs (Decidable (_ ≤ _))

theorem Vocabulary.HasRoom.of_append {larger : Vocabulary} {first second : List Pushed}
    (room : larger.HasRoom (first ++ second)) : larger.HasRoom first := by
  rw [HasRoom, Pushed.pool_append, List.length_append, ← Nat.add_assoc] at room
  exact Nat.le_of_add_right_le room

/-- The words spell the same instructions over either pool, and what these push has its place. -/
def SpellMoved (vocabulary larger : Vocabulary) (placed : List Pushed)
    (words words' : Array UInt32) : Prop :=
  ∃ code, Spells words code ∧
    Spells words' (code.map (Instruction.moved vocabulary.size larger.size)) ∧
    (code.filterMap Instruction.constant?).map some =
      Pushed.places vocabulary vocabulary.size placed

/-- Two assemblies of the same instructions, with a vocabulary and with a larger one. The literals
stand at the end of either pool. -/
structure Assembly.Lockstep (vocabulary larger : Vocabulary) (placed : List Pushed)
    (pooled : List Value) (assembly assembly' : Assembly) : Prop where
  code : SpellMoved vocabulary larger placed assembly.code assembly'.code
  constants : assembly.constants.toList = vocabulary.values.toList ++ pooled
  constants' : assembly'.constants.toList = larger.values.toList ++ pooled
  locations : assembly'.locations = assembly.locations
  blocks : assembly'.blocks = assembly.blocks
  numbered : assembly'.numbered = assembly.numbered

section Lockstep

variable {vocabulary larger : Vocabulary} {placed pushed : List Pushed} {pooled : List Value}
variable {assembly assembly' : Assembly}

theorem Vocabulary.size_values (vocabulary : Vocabulary) :
    vocabulary.values.size = vocabulary.size :=
  Array.size_map

theorem Vocabulary.lookup_lt {word : String} {place : Nat}
    (known : vocabulary.lookup word = some place) : place < vocabulary.size :=
  (Array.findIdx?_eq_some_iff_getElem.1 known).1

/-- One instruction. What it pushes comes behind all that has been placed. -/
theorem Assembly.Lockstep.lay
    (lockstep : Lockstep vocabulary larger placed pooled assembly assembly') (room : Prop)
    (span : Option Span) (instruction : Instruction) (pushed : List Pushed)
    (pushes : ([instruction].filterMap Instruction.constant?).map some =
      Pushed.places vocabulary (vocabulary.size + (Pushed.pool placed).length) pushed)
    (fits : instruction.Fits → room → (instruction.moved vocabulary.size larger.size).Fits) :
    Outcome.Accompanies (Lockstep vocabulary larger (placed ++ pushed) pooled) room
      (assembly.lay span instruction)
      (assembly'.lay span (instruction.moved vocabulary.size larger.size)) := by
  intro after laid
  obtain ⟨here, rfl⟩ := lay_eq_ok laid
  constructor
  · intro after' laid'
    obtain ⟨there, rfl⟩ := lay_eq_ok laid'
    obtain ⟨code, spells, spells', places⟩ := lockstep.code
    refine ⟨⟨code ++ [instruction], spells.concat here, ?_, ?_⟩, lockstep.constants,
      lockstep.constants', ?_, lockstep.blocks, lockstep.numbered⟩
    · rw [List.map_append]
      exact spells'.concat there
    · rw [List.filterMap_append, List.map_append, places, Pushed.places_append, pushes]
    · rw [lockstep.locations, Marked.spans, Marked.spans, Instruction.width_moved]
  · intro enough
    obtain ⟨_, _, _, _, large, small⟩ | ⟨after', done, _⟩ :=
      lay_room assembly' span (fits here enough)
    · exact absurd small (Nat.not_lt_of_le large)
    · exact ⟨after', done⟩

theorem ArePushes.uncons {first : Emitted} {rest : List Emitted}
    (pushes : ArePushes vocabulary (first :: rest) pushed) :
    ∃ here later, pushed = here ++ later ∧ ArePushes vocabulary [first] here ∧
      ArePushes vocabulary rest later := by
  rw [ArePushes, List.filter_cons] at pushes
  cases isPush : first.isPush with
  | false =>
      rw [isPush] at pushes
      refine ⟨[], pushed, rfl, ?_, pushes⟩
      rw [ArePushes, List.filter_singleton, isPush]
      exact .nil
  | true =>
      rw [isPush] at pushes
      cases pushes with
      | cons here later =>
          refine ⟨[_], _, rfl, ?_, later⟩
          rw [ArePushes, List.filter_singleton, isPush]
          exact .cons here .nil

/-- An instruction that is emitted as it is stays as it is over the larger pool: it can push a word
only. -/
theorem ArePushes.instruction {instruction : Instruction}
    (pushes : ArePushes vocabulary [.instruction instruction] pushed) :
    Pushed.pool pushed = [] ∧ (∀ size', instruction.moved vocabulary.size size' = instruction) ∧
      ∀ next, ([instruction].filterMap Instruction.constant?).map some =
        Pushed.places vocabulary next pushed := by
  cases instruction with
  | push index =>
      cases pushes with
      | cons push none =>
          cases none
          cases push with
          | word known =>
              refine ⟨rfl, fun size' => ?_, fun next => congrArg ([·]) known.symm⟩
              rw [Instruction.moved, if_pos (Vocabulary.lookup_lt known)]
  | _ =>
      cases pushes
      exact ⟨rfl, fun _ => rfl, fun _ => rfl⟩

namespace Assembly.Lockstep

theorem size_constants (lockstep : Lockstep vocabulary larger placed pooled assembly assembly') :
    assembly.constants.size = vocabulary.size + pooled.length ∧
      assembly'.constants.size = larger.size + pooled.length := by
  have size := congrArg List.length lockstep.constants
  have size' := congrArg List.length lockstep.constants'
  rw [List.length_append, Array.length_toList, Array.length_toList, Vocabulary.size_values]
    at size size'
  exact ⟨size, size'⟩

theorem pool (lockstep : Lockstep vocabulary larger placed pooled assembly assembly')
    (value : Value) :
    Lockstep vocabulary larger placed (pooled ++ [value])
      { assembly with constants := assembly.constants.push value }
      { assembly' with constants := assembly'.constants.push value } :=
  { lockstep with
    constants := by rw [Array.toList_push, lockstep.constants, List.append_assoc]
    constants' := by rw [Array.toList_push, lockstep.constants', List.append_assoc] }

theorem number (lockstep : Lockstep vocabulary larger placed pooled assembly assembly') :
    Lockstep vocabulary larger placed pooled
      { assembly with numbered := assembly.numbered + 1 }
      { assembly' with numbered := assembly'.numbered + 1 } :=
  { lockstep with numbered := congrArg (· + 1) lockstep.numbered }

/-- What was emitted is laid down over either pool. -/
theorem layEmitted
    (lockstep : Lockstep vocabulary larger placed (Pushed.pool placed) assembly assembly')
    (bodies : List Block) {located : Located} (pushes : ArePushes vocabulary [located.1] pushed) :
    Outcome.Accompanies
      (fun result result' => Lockstep vocabulary larger (placed ++ pushed)
        (Pushed.pool (placed ++ pushed)) result.1 result'.1 ∧ result'.2 = result.2)
      (larger.HasRoom (placed ++ pushed)) (Assembly.layEmitted (assembly, bodies) located)
      (Assembly.layEmitted (assembly', bodies) located) := by
  obtain ⟨emitted, span⟩ := located
  refine .within ?_ span
  cases emitted with
  | instruction instruction =>
      obtain ⟨none, same, places⟩ := pushes.instruction
      rw [Pushed.pool_append, none, List.append_nil]
      have laid := lockstep.lay (larger.HasRoom (placed ++ pushed)) span instruction pushed
        (places _) fun fits _ => (same larger.size).symm ▸ fits
      rw [same] at laid
      exact laid.map fun _ _ after => ⟨after, rfl⟩
  | literal value =>
      cases pushes with
      | cons push none =>
          cases none
          cases push
          -- Either pool has as many literals behind its vocabulary, and this is the next one.
          obtain ⟨size, size'⟩ := lockstep.size_constants
          have behind : (Instruction.push assembly.constants.size).moved vocabulary.size
              larger.size = .push assembly'.constants.size := by
            rw [Instruction.moved, size, size', if_neg (by omega), Nat.add_sub_cancel_left,
              Nat.add_comm]
          have fits (room : larger.HasRoom (placed ++ [.literal value])) :
              (Instruction.push assembly'.constants.size).Fits := by
            rw [Instruction.Fits, Instruction.operands, List.forall_mem_singleton]
            rw [Vocabulary.HasRoom, Pushed.pool_append, List.length_append] at room
            have one : (Pushed.pool [.literal value]).length = 1 := rfl
            omega
          have laid := (lockstep.pool value).lay (larger.HasRoom (placed ++ [.literal value])) span
            (.push assembly.constants.size) [.literal value] (congrArg ([some ·]) size)
            fun _ room => behind.symm ▸ fits room
          rw [behind] at laid
          rw [Pushed.pool_append]
          exact laid.map fun _ _ after => ⟨after, rfl⟩
  | closure body =>
      cases pushes
      rw [List.append_nil]
      have same : (Instruction.closure assembly.numbered).moved vocabulary.size larger.size =
          .closure assembly'.numbered :=
        congrArg Instruction.closure lockstep.numbered.symm
      have laid := lockstep.number.lay (larger.HasRoom placed) span (.closure assembly.numbered) []
        rfl fun fits _ => fits
      rw [same, List.append_nil] at laid
      exact laid.map fun _ _ after => ⟨after, rfl⟩

/-- What was emitted is laid down in order. -/
theorem layAll
    (lockstep : Lockstep vocabulary larger placed (Pushed.pool placed) assembly assembly')
    (bodies : List Block) {located : List Located}
    (pushes : ArePushes vocabulary (located.map Prod.fst) pushed) :
    Outcome.Accompanies
      (fun result result' => Lockstep vocabulary larger (placed ++ pushed)
        (Pushed.pool (placed ++ pushed)) result.1 result'.1 ∧ result'.2 = result.2)
      (larger.HasRoom (placed ++ pushed)) (located.foldlM Assembly.layEmitted (assembly, bodies))
      (located.foldlM Assembly.layEmitted (assembly', bodies)) := by
  induction located generalizing assembly assembly' bodies placed pushed with
  | nil =>
      cases pushes
      rw [List.append_nil]
      exact .ok ⟨lockstep, rfl⟩
  | cons first rest inductionHypothesis =>
      obtain ⟨here, later, rfl, firstPushes, restPushes⟩ := pushes.uncons
      rw [List.foldlM_cons, List.foldlM_cons, ← List.append_assoc]
      refine (lockstep.layEmitted bodies firstPushes).bind ?_ .of_append
      rintro ⟨between, _⟩ ⟨between', noted⟩ _ ⟨after, rfl⟩
      exact inductionHypothesis after noted restPushes

/-- One task. -/
theorem perform
    (lockstep : Lockstep vocabulary larger placed (Pushed.pool placed) assembly assembly')
    (grows : larger.Extends vocabulary) (task : Task) :
    Outcome.Accompanies
      (fun result result' => Lockstep vocabulary larger (placed ++ task.body.pushes)
        (Pushed.pool (placed ++ task.body.pushes)) result.1 result'.1 ∧ result'.2 = result.2)
      (larger.HasRoom (placed ++ task.body.pushes)) (assembly.perform vocabulary task)
      (assembly'.perform larger task) := by
  have start : assembly'.code.size = assembly.code.size := by
    obtain ⟨code, ⟨words, _⟩, ⟨words', _⟩, _⟩ := lockstep.code
    rw [← Array.length_toList, ← Array.length_toList, words, words', List.flatMap_map,
      List.length_flatMap, List.length_flatMap]
    simp only [Instruction.length_words, Instruction.width_moved]
  refine Outcome.Accompanies.bind (Block.emits grows task.outer task.scope task.body) ?_
    fun _ => trivial
  rintro ⟨located, whole⟩ _ _ ⟨rfl, pushes⟩
  refine (lockstep.layAll [] pushes).bind ?_ id
  rintro ⟨between, _⟩ ⟨between', noted⟩ _ ⟨after, rfl⟩
  refine .ok ⟨{ after with blocks := ?_ }, rfl⟩
  dsimp only
  rw [after.blocks, start]

/-- All tasks, in the order of their numbers. -/
theorem performAll {externals : List String} {budget number : Nat} {waiting : List Nesting}
    (lockstep : Lockstep vocabulary larger placed (Pushed.pool placed) assembly assembly')
    (grows : larger.Extends vocabulary) :
    Outcome.Accompanies
      (Lockstep vocabulary larger
        (placed ++ (Nesting.queue budget number waiting).flatMap (·.body.pushes))
        (Pushed.pool (placed ++ (Nesting.queue budget number waiting).flatMap (·.body.pushes))))
      (larger.HasRoom (placed ++ (Nesting.queue budget number waiting).flatMap (·.body.pushes)))
      (Assembly.performAll vocabulary budget assembly (waiting.map (Nesting.task externals)))
      (Assembly.performAll larger budget assembly' (waiting.map (Nesting.task externals))) := by
  induction budget generalizing assembly assembly' placed number waiting with
  | zero =>
      rw [Nesting.queue, List.flatMap_nil, List.append_nil]
      exact .ok lockstep
  | succ budget inductionHypothesis =>
      cases waiting with
      | nil =>
          rw [Nesting.queue, List.flatMap_nil, List.append_nil]
          exact .ok lockstep
      | cons nesting waiting =>
          rw [Nesting.queue, List.flatMap_cons, ← List.append_assoc]
          refine (lockstep.perform grows (nesting.task externals)).bind ?_ .of_append
          rintro ⟨after, _⟩ ⟨after', new, whole⟩ performed ⟨kept, rfl⟩
          have isNew : new = (nesting.literals number).map (Nesting.task externals) :=
            (Assembly.perform_literals performed).trans (nesting.literals_task externals number)
          rw [isNew, ← List.map_append]
          exact inductionHypothesis kept

end Assembly.Lockstep

/-- Two programs of the same tree, compiled with a vocabulary and with a larger one. -/
structure Program.Recompiled (vocabulary larger : Vocabulary) (pushed : List Pushed)
    (program program' : Program) : Prop where
  code : SpellMoved vocabulary larger pushed program.code program'.code
  constants : program.constants.toList = vocabulary.values.toList ++ Pushed.pool pushed
  locations : program'.locations = program.locations
  blocks : program'.blocks = program.blocks
  externals : program'.externals = program.externals
  globals : program'.globals = program.globals

/-- A program that is compiled again with a larger vocabulary pushes the same words and literals. -/
theorem Block.compile_accompanies (grows : larger.Extends vocabulary) (block : Block)
    (externals : List String) :
    Outcome.Accompanies (Program.Recompiled vocabulary larger block.pushesThroughout)
      (larger.HasRoom block.pushesThroughout) (block.compile vocabulary externals)
      (block.compile larger externals) := by
  have start : Assembly.Lockstep vocabulary larger [] (Pushed.pool []) (.start vocabulary)
      (.start larger) :=
    ⟨⟨[], ⟨rfl, nofun⟩, ⟨rfl, nofun⟩, rfl⟩, (List.append_nil _).symm, (List.append_nil _).symm,
      rfl, rfl, rfl⟩
  have split : block.pushesThroughout = block.pushes ++
      (Nesting.queue block.literals 1 (Nesting.literals 0 ⟨block, []⟩)).flatMap (·.body.pushes) :=
    rfl
  rw [split]
  refine (Outcome.Accompanies.self (Scope.declareAll [] externals)).bind ?_ id
  rintro scope _ declared rfl
  obtain rfl : scope = externals := (Scope.declareAll_eq_ok declared).1
  refine (start.perform grows ⟨block, [], scope⟩).bind ?_ .of_append
  rintro ⟨after, _⟩ ⟨after', new, whole⟩ performed ⟨kept, rfl⟩
  have isNew : new = (Nesting.literals 0 ⟨block, []⟩).map (Nesting.task scope) :=
    (Assembly.perform_literals performed).trans (Nesting.literals_task scope 0 ⟨block, []⟩)
  rw [isNew]
  refine (kept.performAll grows).bind ?_ id
  rintro assembly assembly' _ ended
  exact .ok ⟨ended.code, ended.constants, ended.locations, ended.blocks, rfl, rfl⟩

end Lockstep

/-! ### Programs that push -/

/-- The value that is meant. -/
def Pushed.value? (vocabulary : Vocabulary) : Pushed → Option Value
  | .word name => vocabulary.value? name
  | .literal value => some value

/-- The words of the program spell the code, and what the code pushes from the pool is this: words
have their places in the vocabulary and their values from there, and literals stand behind it. -/
structure Program.PushesFrom (program : Program) (code : List Instruction) (vocabulary : Vocabulary)
    (pushed : List Pushed) : Prop where
  spells : Spells program.code code
  places : (code.filterMap Instruction.constant?).map some =
    Pushed.places vocabulary vocabulary.size pushed
  values : (code.filterMap Instruction.constant?).map (program.constants[·]?) =
    pushed.map (Pushed.value? vocabulary)
  constants : program.constants.toList = vocabulary.values.toList ++ Pushed.pool pushed

section Programs

variable {vocabulary larger : Vocabulary} {block : Block} {externals : List String}
variable {program program' : Program}

theorem Vocabulary.value?_of_lookup_eq_none {word : String}
    (unknown : vocabulary.lookup word = none) : vocabulary.value? word = none := by
  have others := Array.findIdx?_eq_none_iff.1 unknown
  refine Option.map_eq_none_iff.2 (Array.find?_eq_none.2 fun entry member found => ?_)
  exact Bool.false_ne_true ((others entry member).symm.trans found)

/-- A place in the pool holds the value that is meant. -/
theorem Pushed.values_places {pool : List Value} {pushed : List Pushed} {before : List Value}
    (isPool : pool = vocabulary.values.toList ++ before ++ Pushed.pool pushed) :
    (Pushed.places vocabulary (vocabulary.size + before.length) pushed).map (·.bind (pool[·]?)) =
      pushed.map (Pushed.value? vocabulary) := by
  induction pushed generalizing before with
  | nil => rfl
  | cons item rest inductionHypothesis =>
      cases item with
      | word name =>
          have here : (vocabulary.lookup name).bind (pool[·]?) = vocabulary.value? name := by
            cases known : vocabulary.lookup name with
            | none => exact (Vocabulary.value?_of_lookup_eq_none known).symm
            | some place =>
                obtain ⟨value, isValue, found⟩ := Vocabulary.value?_of_lookup known
                rw [← Array.getElem?_toList] at found
                rw [isValue, isPool, List.append_assoc]
                exact getElem?_mono (List.prefix_append _ _) found
          exact congrArg₂ (· :: ·) here (inductionHypothesis isPool)
      | literal value =>
          have size : (vocabulary.values.toList ++ before).length =
              vocabulary.size + before.length := by
            rw [List.length_append, Array.length_toList, Vocabulary.size_values]
          have here : pool[vocabulary.size + before.length]? = some value := by
            rw [isPool, ← size, List.getElem?_append_right (Nat.le_refl _), Nat.sub_self]
            rfl
          have later := @inductionHypothesis (before ++ [value])
            (by rw [isPool, List.append_assoc, List.append_assoc, List.append_assoc]; rfl)
          rw [List.length_append, ← Nat.add_assoc] at later
          exact congrArg₂ (· :: ·) here later

theorem Block.compile_pushes (compiled : block.compile vocabulary externals = .ok program) :
    ∃ code, program.PushesFrom code vocabulary block.pushesThroughout := by
  have same : vocabulary.Extends vocabulary := fun _ _ known => known
  have recompiled := (Block.compile_accompanies same block externals program compiled).1 program
    compiled
  obtain ⟨code, spells, _, places⟩ := recompiled.code
  refine ⟨code, spells, places, ?_, recompiled.constants⟩
  have values := @Pushed.values_places vocabulary program.constants.toList block.pushesThroughout []
    (by rw [List.append_nil]; exact recompiled.constants)
  rw [← values, List.length_nil, Nat.add_zero, ← places, List.map_map]
  exact List.map_congr_left fun place _ => Array.getElem?_toList.symm

/-- The code of a program that is compiled again differs in the places of the literals alone. -/
theorem Block.compile_again (grows : larger.Extends vocabulary) {code : List Instruction}
    (compiled : block.compile vocabulary externals = .ok program)
    (pushes : program.PushesFrom code vocabulary block.pushesThroughout)
    (again : block.compile larger externals = .ok program') :
    program'.PushesFrom (code.map (Instruction.moved vocabulary.size larger.size)) larger
        block.pushesThroughout ∧
      program'.locations = program.locations ∧ program'.blocks = program.blocks ∧
      program'.externals = program.externals ∧ program'.globals = program.globals := by
  have recompiled := (Block.compile_accompanies grows block externals program compiled).1 program'
    again
  obtain ⟨code₁, spells, spells', _⟩ := recompiled.code
  obtain rfl := spells.unique pushes.spells
  obtain ⟨code₂, pushes'⟩ := Block.compile_pushes again
  obtain rfl := spells'.unique pushes'.spells
  exact ⟨pushes', recompiled.locations, recompiled.blocks, recompiled.externals,
    recompiled.globals⟩

end Programs

end PointFree
