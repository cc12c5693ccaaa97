import PointFree.Proofs.Splitting.Steps

/-!
Contract: evaluating trees line by line and at once.

A tree and the same tree further on in the text are evaluated alike where they stand in
environments that belong together, as long as everything that the tree has to do with the top level
is permitted. What a function does was permitted when its literal was met.
-/

namespace PointFree

open Correspondence

namespace Splitting

variable {lines : Nat → Block} {current : Nat} {W V : World} {line : Nat} {name : String}
variable {hidden inside : List String} {standpoint standpoint' : Standpoint}

instance : Counting (splitting lines current) where
  depth := Stores.depth
  redepth change stores :=
    have stores : Stores lines current (splitting lines current).Values _ _ _ := stores
    { stores with depth := congrArg change stores.depth }

/-! ### Steps that may fail -/

section Failing

variable {α α' : Type} {A : World → α → α' → Prop} {action : Action Lexical α}
variable {action' : Action Lexical α'}

/-- Nothing is said of an evaluation line by line that fails. -/
theorem Ends.of_error {ended : Outcome α × Memory Lexical} {ended' : Outcome α' × Memory Lexical}
    {failure : Failure} {memory : Memory Lexical} (fails : ended = (.error failure, memory)) :
    (splitting lines current).Ends W A ended ended' :=
  .inl ⟨failure, congrArg Prod.fst fails, trivial⟩

/-- So it does not matter where. -/
theorem Actions.relocated (span span' : Option Span)
    (actions : (splitting lines current).Actions W A action action') :
    (splitting lines current).Actions W A (Action.located span action)
      (Action.located span' action') := by
  intro V later calling calling' calls memory memory' memories
  have ends := actions later calls memories
  rcases one : action calling memory with ⟨failure | result, after⟩
  · have fails : Action.located span action calling memory = (.error (failure.within span), after) := by
      rw [Action.located, one]
      rfl
    exact Ends.of_error fails
  · rw [one] at ends
    obtain ⟨failure, failed, _⟩ | ⟨U, further, between, outcomes⟩ := ends
    · cases failed
    · rw [Action.located, Action.located, one]
      rcases two : action' calling' memory' with ⟨failure' | result', after'⟩
      · rw [two] at outcomes
        cases outcomes
      · rw [two] at between outcomes
        exact .inr ⟨U, further, between, outcomes⟩

end Failing

/-! ### Variables -/

/-- Names that are declared where the code stands have a value there. -/
def Assigned (standpoint : Standpoint) (names : List String) (W : (splitting lines current).World)
    (_ _ : Unit) : Prop :=
  ∀ name ∈ names, name ∈ standpoint.declared →
    (standpoint.environment, name) ∈ World.assigned W

instance {names : List String} : Lasting (@Assigned lines current standpoint names) :=
  ⟨fun later assigned name member declared => later.2.2 (assigned name member declared)⟩

/-- Values that correspond, after names have got values. -/
def Concludes (environment : Nat) (names : List String) (W : (splitting lines current).World)
    (value value' : Value) : Prop :=
  (splitting lines current).Values W value value' ∧
    ∀ name ∈ names, (environment, name) ∈ World.assigned W

instance {environment : Nat} {names : List String} :
    Lasting (@Concludes lines current environment names) :=
  ⟨fun later both => ⟨both.1.mono later, fun name member => later.2.2 (both.2 name member)⟩⟩

theorem Stands.read (stands : Stands W line hidden inside standpoint standpoint')
    (shared : name ∉ hidden → Shares lines current line name) :
    (splitting lines current).Actions W (splitting lines current).Values (standpoint.read name)
      (standpoint'.read name) := by
  intro V later calling calling' _ memory memory' memories
  have stores : Stores lines current (splitting lines current).Values V memory memory' := memories
  rw [Standpoint.read, Standpoint.read]
  cases isOwner : memory.heap.visible? standpoint.declared standpoint.environment name with
  | none => exact Ends.of_error (Lexical.read_of_invisible isOwner)
  | some owner =>
      obtain ⟨owner', isOwner', owned, _⟩ := stores.visible (stands.mono later) isOwner
      rw [Lexical.read_of_visible? isOwner, Lexical.read_of_visible? isOwner']
      cases isSet : memory.heap.value? owner name with
      | none => exact Ends.of_error rfl
      | some value =>
          obtain ⟨value', isSet', values⟩ := stores.content owned shared isSet
          rw [isSet']
          exact .inr ⟨V, le_rfl, stores, .ok values⟩

theorem Stands.write (fresh : Bool) (stands : Stands W line hidden inside standpoint standpoint')
    (permitted : name ∉ hidden → Permits lines current line ⟨name, true, false⟩)
    {value value' : Value} (values : (splitting lines current).Values W value value') :
    (splitting lines current).Actions W (Assigned standpoint [name])
      (standpoint.write fresh name value) (standpoint'.write fresh name value') := by
  intro V later calling calling' _ memory memory' memories
  have stores : Stores lines current (splitting lines current).Values V memory memory' := memories
  rw [Standpoint.write, Standpoint.write]
  cases isOwner : memory.heap.visible? standpoint.declared standpoint.environment name with
  | none => exact Ends.of_error (Lexical.write_of_invisible fresh isOwner)
  | some owner =>
      obtain ⟨owner', isOwner', owned, own⟩ := stores.visible (stands.mono later) isOwner
      rw [Lexical.write_of_visible? fresh isOwner, Lexical.write_of_visible? fresh isOwner']
      have changed : Stores lines current (splitting lines current).Values _ _ _ :=
        stores.bind owned (fun shown => (permitted shown).alone rfl) (values.mono later)
      have assigned : @Assigned lines current standpoint [name] (V.assign [(owner, name)]) () () := by
        intro word member declared
        obtain rfl := List.mem_singleton.1 member
        exact own declared ▸ List.mem_cons_self
      cases isSet : memory.heap.value? owner name with
      | none =>
          cases fresh with
          | false => exact Ends.of_error rfl
          | true => exact .inr ⟨_, World.le_assign _, changed, .ok assigned⟩
      | some current =>
          obtain ⟨_, isSet', _⟩ :=
            stores.content owned (fun shown => (permitted shown).shared) isSet
          rw [isSet']
          simp only [Option.isNone_some, Bool.and_false, Bool.false_eq_true, if_false]
          exact .inr ⟨_, World.le_assign _, changed, .ok assigned⟩

theorem Stands.implicit (stands : Stands W line hidden inside standpoint standpoint')
    (variant : Implicit) :
    (splitting lines current).Actions W (splitting lines current).Values
      (Lexical.readImplicit standpoint.environment variant)
      (Lexical.readImplicit standpoint'.environment variant) := by
  intro V later calling calling' _ memory memory' memories
  have stores : Stores lines current (splitting lines current).Values V memory memory' := memories
  obtain ⟨chain, isChain, place, _⟩ := (stands.mono later).known
  obtain ⟨_, environment, environment', found, found', matched⟩ := stores.environment isChain
  rw [Lexical.readImplicit_eq, Lexical.readImplicit_eq, place, Lexical.implicit?,
    Lexical.implicit?, found, found', Option.bind_some, Option.bind_some]
  cases chain with
  | top =>
      rw [Tops.implicit matched variant]
      exact Ends.of_error rfl
  | inner =>
      have options := Inners.implicit matched variant
      generalize environment.implicit? variant = content at options
      generalize environment'.implicit? variant = content' at options
      cases options with
      | none => exact Ends.of_error rfl
      | some values => exact .inr ⟨V, le_rfl, stores, .ok values⟩

theorem Stands.primitive (stands : Stands W line hidden inside standpoint standpoint')
    (word : String) :
    Options (splitting lines current).Values W (standpoint.vocabulary.value? word)
      (standpoint'.vocabulary.value? word) := by
  rw [stands.vocabulary, stands.vocabulary']
  cases known : (Vocabulary.standardFrom 0).value? word with
  | none => exact .none
  | some value =>
      refine .some ?_
      obtain ⟨entry, isEntry, rfl⟩ := Option.map_eq_some_iff.1 known
      obtain ⟨primitive, _, rfl⟩ :=
        List.mem_map.1 (List.mem_toArray.1 (Array.mem_of_find?_eq_some isEntry))
      exact .function (.mk rfl (.primitive primitive.1))

/-- A literal that is met. -/
theorem Stands.closure (stands : Stands W line hidden inside standpoint standpoint') (offset : Nat)
    {body : Block} (reaches : ∀ usage ∈ body.usages inside, usage.defer ∈ (lines line).reaches) :
    (splitting lines current).Actions W (splitting lines current).Functions
      (do
        let number ← Lexical.note ⟨body, standpoint.vocabulary, standpoint.limit⟩
        Action.make (.block number 0 standpoint.environment))
      (do
        let number ← Lexical.note ⟨body.shift offset, standpoint'.vocabulary, standpoint'.limit⟩
        Action.make (.block number 0 standpoint'.environment)) := by
  intro V later calling calling' calls memory memory' memories
  have stores : Stores lines current (splitting lines current).Values V memory memory' := memories
  obtain ⟨chain, isChain, place, rfl, rfl, _⟩ := (stands.mono later).known
  have shifted : Shifted ⟨body, standpoint.vocabulary, standpoint.limit⟩
      ⟨body.shift offset, standpoint'.vocabulary, standpoint'.limit⟩ :=
    ⟨offset, by rw [stands.vocabulary, stands.vocabulary', stands.limit]⟩
  have noted := stores.withLiteral shifted stands.vocabulary
  have grown : V ≤ V.withLiteral ⟨body, standpoint.vocabulary, standpoint.limit⟩ :=
    World.le_withLiteral _
  have counted : memory.heap.literals.size = V.literals.length := by
    rw [← Array.length_toList, stores.literals]
  have counted' : memory.heap.literals.size = memory'.heap.literals.size := by
    rw [counted, stores.shifted.length_eq, Array.length_toList]
  have isLiteral : (V.withLiteral ⟨body, standpoint.vocabulary, standpoint.limit⟩).literals[
      memory.heap.literals.size]? = some ⟨body, standpoint.vocabulary, standpoint.limit⟩ :=
    counted ▸ List.getElem?_concat_length
  have partners : Partners lines (V.withLiteral ⟨body, standpoint.vocabulary, standpoint.limit⟩)
      memory.heap.literals.size standpoint.environment memory'.heap.literals.size
      standpoint'.environment :=
    ⟨counted', chain, _, getElem?_mono grown.1 isChain, place, isLiteral, reaches⟩
  have forms : (splitting lines current).Forms
      (V.withLiteral ⟨body, standpoint.vocabulary, standpoint.limit⟩)
      (.block memory.heap.literals.size 0 standpoint.environment)
      (.block memory'.heap.literals.size 0 standpoint'.environment) := .block partners
  have step : Lexical.note ⟨body, standpoint.vocabulary, standpoint.limit⟩ calling memory =
      (.ok memory.heap.literals.size, _) := rfl
  have step' : Lexical.note ⟨body.shift offset, standpoint'.vocabulary, standpoint'.limit⟩ calling'
      memory' = (.ok memory'.heap.literals.size, _) := rfl
  rw [Action.bind_of_ok step, Action.bind_of_ok step']
  exact (Actions.make forms le_rfl (calls.mono grown) noted).back grown

end Splitting

open Splitting

/-! ### Trees -/

section Trees

variable {lines : Nat → Block} {current : Nat} {line : Nat} {hidden inside : List String}
variable {standpoint standpoint' : Standpoint} (offset : Nat)

mutual

theorem Expression.splits {W : World}
    (stands : Stands W line hidden inside standpoint standpoint') :
    ∀ expression : Expression,
    (∀ usage ∈ expression.usages hidden inside, Permits lines current line usage) →
    (splitting lines current).Actions W (splitting lines current).Values
      (expression.evaluate standpoint) ((expression.shift offset).evaluate standpoint')
  | .number _, _ => Actions.pure (.number _)
  | .character _, _ => Actions.pure (.character _)
  | .string _, _ => Actions.pure (Values.ofString _)
  | .name word, permitted =>
      stands.read fun shown => (permitted _ (Usage.mem_visible (.head _) shown)).shared
  | .primitive word, _ => by
      have options := @Stands.primitive lines current _ _ _ _ _ _ stands word
      have same : (Expression.primitive word).shift offset = .primitive word := rfl
      rw [same, Expression.evaluate, Expression.evaluate]
      generalize standpoint.vocabulary.value? word = found at options
      generalize standpoint'.vocabulary.value? word = found' at options
      cases options with
      | none => exact Actions.refuse rfl
      | some values => exact Actions.pure values
  | .implicit variant, _ => stands.implicit variant
  | .list items, permitted => by
      rw [Expression.shift, Expression.evaluate, Expression.evaluate]
      refine Actions.bind (Expression.splitsAll stands items permitted) fun _ _ _ lists => ?_
      exact Actions.pure (Values.list lists)
  | .call function right, permitted => by
      obtain ⟨rights, functions⟩ := List.forall_mem_append.1 permitted
      rw [Expression.shift, Expression.evaluate, Expression.evaluate]
      refine Actions.bind (right.splits stands rights) fun later _ _ arguments => ?_
      refine Actions.bind (function.splits (stands.mono later) functions) ?_
      intro _ after _ _ operators
      exact operators.call (arguments.mono after) .none
  | .callBoth function left right, permitted => by
      obtain ⟨others, lefts⟩ := List.forall_mem_append.1 permitted
      obtain ⟨rights, functions⟩ := List.forall_mem_append.1 others
      rw [Expression.shift, Expression.evaluate, Expression.evaluate]
      refine Actions.bind (right.splits stands rights) fun first _ _ arguments => ?_
      refine Actions.bind (function.splits (stands.mono first) functions) ?_
      intro _ second _ _ operators
      refine Actions.bind (left.splits (stands.mono (le_trans first second)) lefts) ?_
      intro _ third _ _ others
      exact (operators.mono third).call (arguments.mono (le_trans second third)) (.some others)
  | .modifyOne glyph operand, permitted => by
      rw [Expression.shift, Expression.evaluate, Expression.evaluate]
      split
      · exact Actions.refuse rfl
      · refine Actions.bind (operand.splits stands permitted) fun _ _ _ operands => ?_
        exact Actions.function (operands.modifyOne _)
  | .modifyTwo glyph left right, permitted => by
      obtain ⟨rights, lefts⟩ := List.forall_mem_append.1 permitted
      rw [Expression.shift, Expression.evaluate, Expression.evaluate]
      split
      · exact Actions.refuse rfl
      · refine Actions.bind (right.splits stands rights) fun later _ _ seconds => ?_
        refine Actions.bind (left.splits (stands.mono later) lefts) fun after _ _ firsts => ?_
        exact Actions.function (firsts.modifyTwo _ (seconds.mono after))
  | .atop left right, permitted => by
      obtain ⟨rights, lefts⟩ := List.forall_mem_append.1 permitted
      rw [Expression.shift, Expression.evaluate, Expression.evaluate]
      refine Actions.bind (right.splits stands rights) fun first _ _ seconds => ?_
      refine Actions.bind seconds.toFunction fun second _ _ inner => ?_
      refine Actions.bind (left.splits (stands.mono (le_trans first second)) lefts) ?_
      intro _ third _ _ firsts
      refine Actions.bind firsts.toFunction fun fourth _ _ outer => ?_
      exact Actions.function (Actions.make (.atop outer (inner.mono (le_trans third fourth))))
  | .fork left middle right, permitted => by
      obtain ⟨others, lefts⟩ := List.forall_mem_append.1 permitted
      obtain ⟨rights, middles⟩ := List.forall_mem_append.1 others
      rw [Expression.shift, Expression.evaluate, Expression.evaluate]
      refine Actions.bind (right.splits stands rights) fun first _ _ thirds => ?_
      refine Actions.bind thirds.toFunction fun second _ _ after => ?_
      have known := stands.mono (le_trans first second)
      refine Actions.bind (middle.splits known middles) fun third _ _ seconds => ?_
      refine Actions.bind seconds.toFunction fun fourth _ _ between => ?_
      refine Actions.bind (left.splits (known.mono (le_trans third fourth)) lefts) ?_
      intro _ fifth _ _ firsts
      refine Actions.bind firsts.toFunction fun sixth _ _ before => ?_
      have present := le_trans fifth sixth
      exact Actions.function (Actions.make (.fork before (between.mono present)
        (after.mono (le_trans (le_trans third fourth) present))))
  | .block body, permitted => by
      have reaches : ∀ usage ∈ body.usages inside, usage.defer ∈ (lines line).reaches :=
        fun usage member => (permitted _ (List.mem_map_of_mem member)).reached rfl
      rw [Expression.shift, Expression.evaluate, Expression.evaluate]
      exact Actions.function (stands.closure offset reaches)
termination_by structural expression => expression

theorem Expression.splitsAll {W : World}
    (stands : Stands W line hidden inside standpoint standpoint') :
    ∀ items : List Expression,
    (∀ usage ∈ Expression.usagesOfAll hidden inside items, Permits lines current line usage) →
    (splitting lines current).Actions W (Lists (splitting lines current).Values)
      (Expression.evaluateAll standpoint items)
      (Expression.evaluateAll standpoint' (Expression.shiftAll offset items))
  | [], _ => Actions.pure .nil
  | item :: items, permitted => by
      obtain ⟨first, rest⟩ := List.forall_mem_append.1 permitted
      rw [Expression.shiftAll, Expression.evaluateAll, Expression.evaluateAll]
      refine Actions.bind (item.splits stands first) fun later _ _ firsts => ?_
      refine Actions.bind (Expression.splitsAll (stands.mono later) items rest) ?_
      exact fun after _ _ others => Actions.pure (.cons (firsts.mono after) others)
termination_by structural items => items

end

theorem Splitting.Assigned.append {names names' : List String} {W V : Splitting.World}
    (later : W ≤ V) {result result' : Unit}
    (first : @Assigned lines current standpoint names W result result')
    (rest : @Assigned lines current standpoint names' V result result') :
    @Assigned lines current standpoint (names ++ names') V result result' := by
  intro name member declared
  rcases List.mem_append.1 member with early | late
  · exact later.2.2 (first name early declared)
  · exact rest name late declared

mutual

theorem Target.splits (fresh : Bool) {W : World}
    (stands : Stands W line hidden inside standpoint standpoint') :
    ∀ target : Target,
    (∀ name ∈ target.names, name ∉ hidden → Permits lines current line ⟨name, true, false⟩) →
    ∀ {value value' : Value}, (splitting lines current).Values W value value' →
    (splitting lines current).Actions W (Assigned standpoint target.names)
      (target.assign standpoint fresh value) (target.assign standpoint' fresh value')
  | .name word, permitted, _, _, values =>
      stands.write fresh (permitted word (List.mem_singleton_self word)) values
  | .list targets, permitted, _, _, values => by
      rw [Target.names] at permitted ⊢
      cases values with
      | number _ => exact Actions.refuse rfl
      | character _ => exact Actions.refuse rfl
      | function _ => exact Actions.refuse rfl
      | array arrays =>
          rw [Target.assign, Target.assign]
          refine Actions.bind arrays.majorCells fun later row row' rows => ?_
          rw [← rows.size_eq]
          split
          · next counted =>
              exact Target.splitsAll fresh (stands.mono later) targets permitted counted rows
          · exact Actions.refuse rfl
termination_by structural target => target

theorem Target.splitsAll (fresh : Bool) {W : World}
    (stands : Stands W line hidden inside standpoint standpoint') :
    ∀ targets : List Target,
    (∀ name ∈ Target.namesOfAll targets, name ∉ hidden →
      Permits lines current line ⟨name, true, false⟩) →
    ∀ {values values' : List Value}, values.length = targets.length →
    Lists (splitting lines current).Values W values values' →
    (splitting lines current).Actions W (Assigned standpoint (Target.namesOfAll targets))
      (Target.assignAll standpoint fresh targets values)
      (Target.assignAll standpoint' fresh targets values')
  | [], _, _, _, _, _ => Actions.pure fun _ => nofun
  | target :: targets, permitted, _, _, counted, .cons values others => by
      obtain ⟨first, rest⟩ := List.forall_mem_append.1 permitted
      refine Actions.bind (target.splits fresh stands first values) fun later _ _ assigned => ?_
      exact (Target.splitsAll fresh (stands.mono later) targets rest (Nat.succ.inj counted)
        (Lists.mono later others)).imp_of_le fun after added => assigned.append after added
termination_by structural targets => targets

end

theorem Clause.splits {hidden' : List String} {W : Splitting.World} {clause : Clause}
    (stands : Stands W line hidden inside standpoint standpoint')
    (after : Stands W line hidden' inside (standpoint.after clause)
      (standpoint'.after (clause.shift offset)))
    (permitted : ∀ usage ∈ clause.usages hidden inside, Permits lines current line usage)
    (defines : ∀ name ∈ clause.declares, name ∉ hidden' →
      Permits lines current line ⟨name, true, false⟩) :
    (splitting lines current).Actions W (Concludes standpoint.environment clause.declares)
      (clause.evaluate standpoint) ((clause.shift offset).evaluate standpoint') := by
  cases clause with
  | expression result =>
      exact (result.splits offset stands permitted).imp fun values => ⟨values, fun _ => nofun⟩
  | define target value =>
      refine Actions.bind (value.splits offset stands permitted) fun later _ _ values => ?_
      refine Actions.bind (target.splits true (after.mono later) defines values) ?_
      exact fun next _ _ assigned => Actions.pure ⟨values.mono next, fun name member =>
        assigned name member (List.mem_append_right _ member)⟩
  | assign target value =>
      obtain ⟨computes, updates⟩ := List.forall_mem_append.1 permitted
      refine Actions.bind (value.splits offset stands computes) fun later _ _ values => ?_
      refine Actions.bind (target.splits false (stands.mono later) (fun name member shown =>
        updates _ (Usage.mem_visible member shown)) values) fun next _ _ _ => ?_
      exact Actions.pure ⟨values.mono next, fun _ => nofun⟩
  | modify name function argument =>
      cases argument with
      | none =>
          obtain ⟨computes, updates⟩ := List.forall_mem_append.1 permitted
          have allowed (shown : name ∉ hidden) := updates _ (Usage.mem_visible (.head _) shown)
          refine Actions.bind (function.splits offset stands computes) fun first _ _ operators => ?_
          refine Actions.bind ((stands.mono first).read fun shown => (allowed shown).shared) ?_
          intro _ second _ _ current
          refine Actions.bind ((operators.mono second).call current .none) fun third _ _ values => ?_
          have known := stands.mono (le_trans (le_trans first second) third)
          refine Actions.bind (known.write false allowed values) fun fourth _ _ _ => ?_
          exact Actions.pure ⟨values.mono fourth, fun _ => nofun⟩
      | some argument =>
          obtain ⟨operations, updates⟩ := List.forall_mem_append.1 permitted
          obtain ⟨arguments, functions⟩ := List.forall_mem_append.1 operations
          have allowed (shown : name ∉ hidden) := updates _ (Usage.mem_visible (.head _) shown)
          refine Actions.bind (argument.splits offset stands arguments) fun first _ _ operands => ?_
          refine Actions.bind (function.splits offset (stands.mono first) functions) ?_
          intro _ second _ _ operators
          have known := stands.mono (le_trans first second)
          refine Actions.bind (known.read fun shown => (allowed shown).shared) ?_
          intro _ third _ _ current
          refine Actions.bind ((operators.mono third).call (operands.mono (le_trans second third))
            (.some current)) fun fourth _ _ values => ?_
          refine Actions.bind ((known.mono (le_trans third fourth)).write false allowed values) ?_
          exact fun fifth _ _ _ => Actions.pure ⟨values.mono fifth, fun _ => nofun⟩
  | guard test fallback => exact Actions.refuse rfl

/-! ### Statements -/

/-- Evaluating one statement after another. -/
theorem Statement.evaluateAll_cons {clause : Clause} {span : Option Span} {next : Statement}
    {rest : List Statement} (plain : clause.IsPlain) (standpoint : Standpoint) :
    Statement.evaluateAll standpoint (.mk clause span :: next :: rest) = (do
      let _ ← Action.located span (clause.evaluate standpoint)
      Statement.evaluateAll (standpoint.after clause) (next :: rest)) := by
  cases clause with
  | guard => cases plain
  | expression | define | assign | modify => rfl

theorem Clause.isPlain_shift {clause : Clause} :
    (clause.shift offset).IsPlain ↔ clause.IsPlain := by
  cases clause with
  | modify name function argument => cases argument <;> exact Iff.rfl
  | _ => exact Iff.rfl

theorem Clause.declares_shift (clause : Clause) :
    (clause.shift offset).declares = clause.declares := by
  cases clause with
  | modify name function argument => cases argument <;> rfl
  | _ => rfl

theorem Statement.declares_shift (statement : Statement) :
    (statement.shift offset).clause.declares = statement.clause.declares := by
  obtain ⟨clause, _⟩ := statement
  exact clause.declares_shift offset

theorem Block.statements_shift (block : Block) :
    (block.shift offset).statements = block.statements.map (Statement.shift offset) := by
  obtain ⟨statements⟩ := block
  exact Statement.shiftAll_eq_map statements

theorem Block.declares_shift (block : Block) : (block.shift offset).declares = block.declares := by
  rw [declares, declares, statements_shift, List.flatMap_map]
  exact congrArg (List.flatMap · block.statements) (funext (Statement.declares_shift offset))

theorem Splitting.Stands.after {W : Splitting.World} {names : List String} {outer : Chain}
    {place : Nat} {clause : Clause} (stands : Stands W line hidden inside standpoint standpoint')
    (chain : W.chains[standpoint.environment]? = some (.inner place names outer))
    (counts : standpoint.declared ++ clause.declares ⊆ names) :
    Stands W line (hidden ++ clause.declares) inside (standpoint.after clause)
      (standpoint'.after (clause.shift offset)) := by
  obtain ⟨known, isChain, place, onLine, within, _, here⟩ := stands.known
  cases chain.symm.trans isChain
  refine { stands with known := ⟨_, chain, place, onLine, within, counts, ?_⟩ }
  rw [Standpoint.after, Standpoint.after, Clause.declares_shift, here.1, here.2, List.append_assoc]
  exact ⟨rfl, rfl⟩

/-- The body of a function. -/
theorem Statement.splitsAll {W : Splitting.World} {names : List String} {outer : Chain} {place : Nat}
    (stands : Stands W line hidden inside standpoint standpoint')
    (chain : W.chains[standpoint.environment]? = some (.inner place names outer))
    (statements : List Statement)
    (counts : standpoint.declared ++ (statements.flatMap fun statement =>
      statement.clause.declares) ⊆ names)
    (permitted : ∀ usage ∈ Statement.usagesOfAll hidden inside statements,
      Permits lines current line usage) :
    (splitting lines current).Actions W (splitting lines current).Values
      (Statement.evaluateAll standpoint statements)
      (Statement.evaluateAll standpoint' (statements.map (Statement.shift offset))) := by
  induction statements generalizing W hidden standpoint standpoint' with
  | nil => exact Actions.pure (.array Arrays.nil)
  | cons statement rest inductionHypothesis =>
      obtain ⟨clause, span⟩ := statement
      obtain ⟨first, others⟩ := List.forall_mem_append.1 permitted
      rw [List.flatMap_cons, ← List.append_assoc] at counts
      have after := stands.after offset chain (List.append_subset.1 counts).1
      have evaluates := clause.splits offset stands after first fun name member shown =>
        absurd (List.mem_append_right hidden member) shown
      cases rest with
      | nil => exact Actions.relocated _ _ (evaluates.imp And.left)
      | cons next more =>
          by_cases plain : clause.IsPlain
          · have plain' := (Clause.isPlain_shift offset).2 plain
            rw [List.map_cons, List.map_cons, Statement.evaluateAll_cons plain, Statement.shift,
              Statement.evaluateAll_cons plain']
            refine Actions.bind (Actions.relocated _ _ evaluates) fun later _ _ _ => ?_
            exact inductionHypothesis (after.mono later) (getElem?_mono later.1 chain) counts others
          cases clause with
          | expression | define | assign | modify => exact absurd trivial plain
          | guard test fallback =>
              have nothing : (Clause.guard test fallback).declares = [] := rfl
              rw [Statement.clause, nothing, List.append_nil] at counts others
              obtain ⟨tests, fallbacks⟩ := List.forall_mem_append.1 first
              have decided : (splitting lines current).Actions W (splitting lines current).Same
                  (do
                    let tested ← test.evaluate standpoint
                    guardNumber tested)
                  (do
                    let tested ← (test.shift offset).evaluate standpoint'
                    guardNumber tested) :=
                Actions.bind (test.splits offset stands tests) fun _ _ _ values =>
                  Actions.lift values.guardNumber
              refine Actions.bind (Actions.relocated span _ decided) fun later holds _ same => ?_
              cases same
              split
              · exact Actions.relocated _ _ (fallback.splits offset (stands.mono later) fallbacks)
              · exact inductionHypothesis (stands.mono later) (getElem?_mono later.1 chain) counts
                  others

theorem Splitting.Stands.after_top {W : Splitting.World} {names : List String} {clause : Clause}
    (stands : Stands W line [] [] standpoint standpoint')
    (chain : W.chains[standpoint.environment]? = some (.top line names))
    (counts : standpoint.declared ++ clause.declares ⊆ names) :
    Stands W line [] [] (standpoint.after clause) (standpoint'.after (clause.shift offset)) := by
  obtain ⟨known, isChain, place, onLine, within, _, here⟩ := stands.known
  cases chain.symm.trans isChain
  refine { stands with known := ⟨_, chain, place, onLine, within, counts, ?_, rfl⟩ }
  rw [Standpoint.after, Standpoint.after, Clause.declares_shift]
  exact List.append_subset.2 ⟨List.subset_append_of_subset_left _ here.1,
    List.subset_append_right ..⟩

/-- The top level of a line. -/
theorem Statement.splitsTop {W : Splitting.World} {names : List String}
    (stands : Stands W line [] [] standpoint standpoint')
    (chain : W.chains[standpoint.environment]? = some (.top line names))
    (statements : List Statement)
    (counts : standpoint.declared ++ (statements.flatMap fun statement =>
      statement.clause.declares) ⊆ names)
    (straight : ∀ statement ∈ statements, statement.clause.IsPlain)
    (permitted : ∀ statement ∈ statements, ∀ usage ∈ statement.mentions,
      Permits lines current line usage) :
    (splitting lines current).Actions W
      (Concludes standpoint.environment
        (statements.flatMap fun statement => statement.clause.declares))
      (Statement.evaluateAll standpoint statements)
      (Statement.evaluateAll standpoint' (statements.map (Statement.shift offset))) := by
  induction statements generalizing W standpoint standpoint' with
  | nil => exact Actions.pure ⟨.array Arrays.nil, fun _ => nofun⟩
  | cons statement rest inductionHypothesis =>
      obtain ⟨clause, span⟩ := statement
      obtain ⟨plain, straight⟩ := List.forall_mem_cons.1 straight
      obtain ⟨first, others⟩ := List.forall_mem_cons.1 permitted
      obtain ⟨evaluated, defined⟩ := List.forall_mem_append.1 first
      rw [List.flatMap_cons, ← List.append_assoc] at counts
      have after := stands.after_top offset chain (List.append_subset.1 counts).1
      have evaluates := clause.splits offset stands after evaluated fun name member _ =>
        defined _ (List.mem_map_of_mem member)
      rw [List.flatMap_cons]
      cases rest with
      | nil => exact Actions.relocated _ _ ((List.append_nil clause.declares).symm ▸ evaluates)
      | cons next more =>
          have plain : clause.IsPlain := plain
          have plain' := (Clause.isPlain_shift offset).2 plain
          rw [List.map_cons, List.map_cons, Statement.evaluateAll_cons plain, Statement.shift,
            Statement.evaluateAll_cons plain']
          refine Actions.bind (Actions.relocated _ _ evaluates) fun later _ _ concludes => ?_
          refine (inductionHypothesis (after.mono later) (getElem?_mono later.1 chain) counts
            straight others).imp_of_le fun further concludes' => ⟨concludes'.1, ?_⟩
          exact List.forall_mem_append.2 ⟨fun name member => further.2.2 (concludes.2 name member),
            concludes'.2⟩

end Trees

end PointFree
