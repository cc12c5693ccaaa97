import PointFree.Proofs.Correspondence.Function
import PointFree.Proofs.Meaning.Variables

/-!
Contract: compiling preserves meaning.

A frame and an environment that are made together extend the world by their chain
of scopes, a function literal that is met extends it by a partner for its block, and
a program that is started extends it by a library. What was known before stays.

A lowering has the meaning of the tree it was made from, part by part, so a block
that is entered does what its literal means, and the machine of a compiled block
ends as the evaluator does.
-/

namespace PointFree.Meaning

open Correspondence

variable {H : Type} [Activations H] [Installed H] [Framed H] {W V : World} {store : Store}
variable {memory' : Memory Lexical}

/-! ### Growing worlds -/

def World.withChain (W : World) (scope : Scope) (outer : List Scope) : World :=
  { W with chains := W.chains ++ [(scope, outer)] }

def World.withLibrary (W : World) (library : Library) : World :=
  { W with libraries := W.libraries ++ [library] }

def World.withLiteral (W : World) (literal : Literal) (program : Nat) : World :=
  { W with literals := W.literals ++ [(literal, program)] }

theorem World.le_withChain (scope : Scope) (outer : List Scope) : W ≤ W.withChain scope outer :=
  ⟨List.prefix_append .., List.prefix_rfl, List.prefix_rfl⟩

theorem World.le_withLibrary (library : Library) : W ≤ W.withLibrary library :=
  ⟨List.prefix_rfl, List.prefix_append .., List.prefix_rfl⟩

theorem World.le_withLiteral (literal : Literal) (program : Nat) :
    W ≤ W.withLiteral literal program :=
  ⟨List.prefix_rfl, List.prefix_rfl, List.prefix_append ..⟩

theorem Linked.later {index further : Nat} {parent : Option Nat} {outer : List Scope}
    (linked : Linked W index parent outer) (after : index ≤ further) :
    Linked W further parent outer := by
  cases linked with
  | top => exact .top
  | inside before chain => exact .inside (Nat.lt_of_lt_of_le before after) chain

theorem Frames.imp {related related' : Value → Value → Prop} {scope : Scope} {frame : Frame}
    {environment : Environment} (frames : Frames related scope frame environment)
    (weaken : ∀ {value value'}, related value value' → related' value value') :
    Frames related' scope frame environment := by
  refine ⟨frames.slots.imp fun content content' options => ?_, frames.names, frames.distinct,
    frames.parent⟩
  cases options with
  | some values => exact .some (weaken values)
  | none => exact .none

theorem Vocabularies.mono {vocabulary vocabulary' : Vocabulary} (later : W ≤ V)
    (vocabularies : Vocabularies ((lexical H).Values W) vocabulary vocabulary') :
    Vocabularies ((lexical H).Values V) vocabulary vocabulary' :=
  vocabularies.imp fun _ _ entries => ⟨entries.1, entries.2.mono later⟩

/-- A word that both know has corresponding values. -/
theorem Vocabularies.value? {vocabulary vocabulary' : Vocabulary}
    (vocabularies : Vocabularies ((lexical H).Values W) vocabulary vocabulary') (word : String) :
    Options (lexical H).Values W (vocabulary.value? word) (vocabulary'.value? word) := by
  rw [Vocabulary.value?, Vocabulary.value?, ← Array.find?_toList, ← Array.find?_toList]
  rw [Vocabularies] at vocabularies
  generalize vocabulary.entries.toList = entries at vocabularies
  generalize vocabulary'.entries.toList = entries' at vocabularies
  induction vocabularies with
  | nil => exact .none
  | cons entries _ inductionHypothesis =>
      rw [List.find?_cons, List.find?_cons, entries.1]
      split
      · exact .some entries.2
      · exact inductionHypothesis

/-! ### What the steps preserve -/

theorem Stores.withChain {scope : Scope} {outer : List Scope} {frame : Frame}
    {environment : Environment} (stores : Stores (lexical H).Values W store memory')
    (linked : Linked W W.chains.length frame.parent outer)
    (frames : Frames ((lexical H).Values W) scope frame environment) :
    Stores (lexical H).Values (W.withChain scope outer)
      { store with heap.frames := store.heap.frames.push frame }
      { memory' with heap.environments := memory'.heap.environments.push environment } := by
  have later : W ≤ W.withChain scope outer := World.le_withChain scope outer
  refine { stores with vocabularies := ?_, frames := ?_, environments := ?_, frame := ?_ }
  · intro number literal program isLiteral
    obtain ⟨library, isLibrary, vocabularies⟩ := stores.vocabularies _ _ _ isLiteral
    exact ⟨library, isLibrary, vocabularies.mono later⟩
  · rw [Array.size_push, stores.frames, World.withChain, List.length_append]
    rfl
  · rw [Array.size_push, stores.environments, World.withChain, List.length_append]
    rfl
  · intro index scope' outer' chain
    rw [World.withChain, List.getElem?_append] at chain
    rw [Array.getElem?_push, Array.getElem?_push, stores.frames,
      stores.environments]
    split at chain
    · next inside =>
        obtain ⟨found, environment, isFrame, isEnvironment, frames, linked⟩ :=
          stores.frame _ _ _ chain
        rw [if_neg (Nat.ne_of_lt inside), if_neg (Nat.ne_of_lt inside)]
        exact ⟨found, environment, isFrame, isEnvironment,
          frames.imp fun values => values.mono later, linked.mono later⟩
    · next outside =>
        obtain ⟨last, same⟩ := List.getElem?_eq_some_iff.1 chain
        have here : index = W.chains.length := by
          rw [List.length_singleton] at last
          omega
        subst here
        simp only [Nat.sub_self, List.getElem_singleton] at same
        cases same
        rw [if_pos rfl, if_pos rfl]
        exact ⟨frame, environment, rfl, rfl, frames.imp fun values => values.mono later,
          linked.mono later⟩

theorem Stores.withLiteral {literal : Literal} {program : Nat} {library : Library}
    (stores : Stores (lexical H).Values W store memory')
    (isLibrary : W.libraries[program]? = some library)
    (vocabularies : Vocabularies ((lexical H).Values W) library.vocabulary literal.vocabulary) :
    Stores (lexical H).Values (W.withLiteral literal program) store
      { memory' with heap.literals := memory'.heap.literals.push literal } := by
  have later : W ≤ W.withLiteral literal program := World.le_withLiteral literal program
  refine { stores with literals := ?_, vocabularies := ?_, frame := ?_ }
  · rw [Array.toList_push, stores.literals, World.withLiteral, List.map_append]
    rfl
  · intro number literal' program' isLiteral
    rw [World.withLiteral, List.getElem?_append] at isLiteral
    split at isLiteral
    · obtain ⟨library', isLibrary', vocabularies'⟩ :=
        stores.vocabularies _ _ _ isLiteral
      exact ⟨library', isLibrary', vocabularies'.mono later⟩
    · cases List.mem_singleton.1 (List.mem_of_getElem? isLiteral)
      exact ⟨library, isLibrary, vocabularies.mono later⟩
  · intro index scope outer chain
    obtain ⟨frame, environment, isFrame, isEnvironment, frames, linked⟩ :=
      stores.frame _ _ _ chain
    exact ⟨frame, environment, isFrame, isEnvironment,
      frames.imp fun values => values.mono later, linked.mono later⟩

theorem Stores.withLibrary {library : Library}
    (stores : Stores (lexical H).Values W store memory') :
    Stores (lexical H).Values (W.withLibrary library)
      { store with heap.programs := store.heap.programs.push library.routines } memory' := by
  have later : W ≤ W.withLibrary library := World.le_withLibrary library
  refine { stores with programs := ?_, vocabularies := ?_, frame := ?_ }
  · rw [Array.toList_push, stores.programs, World.withLibrary, List.map_append]
    rfl
  · intro number literal program isLiteral
    obtain ⟨library', isLibrary, vocabularies⟩ := stores.vocabularies _ _ _ isLiteral
    exact ⟨library', getElem?_mono later.2.1 isLibrary, vocabularies.mono later⟩
  · intro index scope outer chain
    obtain ⟨frame, environment, isFrame, isEnvironment, frames, linked⟩ :=
      stores.frame _ _ _ chain
    exact ⟨frame, environment, isFrame, isEnvironment,
      frames.imp fun values => values.mono later, linked.mono later⟩

/-! ### Steps -/

instance : Counting (lexical H) where
  depth memories := memories.1.depth
  redepth change memories :=
    ⟨{ memories.1 with depth := congrArg change memories.1.depth }, memories.2⟩

/-- The same number, at which the scopes of a block stand. -/
def Stand (H : Type) [Activations H] [Installed H] [Framed H] (scope : Scope) (outer : List Scope)
    (V : (lexical H).World) (frame environment : Nat) : Prop :=
  frame = environment ∧ V.chains[frame]? = some (scope, outer)

instance {scope : Scope} {outer : List Scope} : Lasting (c := lexical H) (Stand H scope outer) :=
  ⟨fun later stand => ⟨stand.1, getElem?_mono later.1 stand.2⟩⟩

theorem Actions.newFrame {scope : Scope} {outer : List Scope} {slots : Array (Option Value)}
    {parent : Option Nat} {environment : Environment}
    (linked : Linked W W.chains.length parent outer)
    (frames : Frames ((lexical H).Values W) scope ⟨slots, parent⟩ environment) :
    (lexical H).Actions W (Stand H scope outer) (Activations.newFrame slots parent)
      (Lexical.newEnvironment environment) := by
  intro V later calling calling' _ memory memory' memories
  obtain ⟨stores, tidy⟩ := memories
  refine Ends.of_leaving (Framed.newFrame_eq slots parent) (Framed.newFrame_tidy tidy)
    (World.le_withChain scope outer) ?_ (.ok ⟨?_, ?_⟩)
  · exact stores.withChain ((linked.mono later).later later.1.length_le)
      (frames.imp fun values => values.mono later)
  · exact stores.frames.trans stores.environments.symm
  · show (V.chains ++ [(scope, outer)])[(Framed.core memory.heap).frames.size]? = _
    rw [show (Framed.core memory.heap).frames.size = V.chains.length from stores.frames,
      List.getElem?_concat_length]

/-- A function made of a block and one made of the literal it was compiled from. -/
theorem Actions.closure {program block frame : Nat} {library : Library} {body : Block}
    {scope : Scope} {outer : List Scope} {vocabulary : Vocabulary}
    (isLibrary : W.libraries[program]? = some library)
    (chain : W.chains[frame]? = some (scope, outer))
    (isTask : library.tasks[block]? = some ⟨body, scope :: outer, []⟩)
    (vocabularies : Vocabularies ((lexical H).Values W) library.vocabulary vocabulary) :
    (lexical H).Actions W (lexical H).Functions (Action.make (.block program block frame))
      (do
        let number ← Lexical.note ⟨body, vocabulary, library.limit⟩
        Action.make (.block number 0 frame)) := by
  intro V later calling calling' calls memory memory' memories
  obtain ⟨stores, tidy⟩ := memories
  have libraryLater := getElem?_mono later.2.1 isLibrary
  have grown : V ≤ V.withLiteral ⟨body, vocabulary, library.limit⟩ program :=
    World.le_withLiteral ..
  have noted : (lexical H).memories (V.withLiteral ⟨body, vocabulary, library.limit⟩ program)
      memory _ := ⟨stores.withLiteral libraryLater (vocabularies.mono later), tidy⟩
  have counted : memory'.heap.literals.size = V.literals.length := by
    rw [← Array.length_toList, stores.literals, List.length_map]
  have isLiteral : (V.withLiteral ⟨body, vocabulary, library.limit⟩ program).literals[
      memory'.heap.literals.size]? = some (⟨body, vocabulary, library.limit⟩, program) :=
    counted ▸ List.getElem?_concat_length
  have partners : Partners (V.withLiteral ⟨body, vocabulary, library.limit⟩ program) program block
      frame memory'.heap.literals.size frame :=
    ⟨rfl, library, _, scope, outer, libraryLater, isLiteral, getElem?_mono later.1 chain, isTask,
      rfl⟩
  have forms : (lexical H).Forms (V.withLiteral ⟨body, vocabulary, library.limit⟩ program)
      (.block program block frame) (.block memory'.heap.literals.size 0 frame) := .block partners
  have step : Lexical.note ⟨body, vocabulary, library.limit⟩ calling' memory' =
      (.ok memory'.heap.literals.size, _) := rfl
  rw [Action.bind_of_ok step]
  exact (Actions.make forms le_rfl (calls.mono grown) noted).back grown

end PointFree.Meaning

namespace PointFree

open Correspondence

/-! ### The scopes of a lowering -/

theorem Clause.Lowers.scope_eq {site : Site} {scope extended : Scope} {clause : Clause}
    {code : List Instruction} {node : Node}
    (lowers : clause.Lowers site scope extended code node) :
    extended = scope ++ clause.declares := by
  cases lowers with
  | expression _ => exact (List.append_nil scope).symm
  | define _ declared _ => exact (Scope.declareAll_eq_ok declared).1
  | assign _ _ => exact (List.append_nil scope).symm
  | update _ _ => exact (List.append_nil scope).symm
  | updateWith _ _ _ => exact (List.append_nil scope).symm

theorem Statement.Lowers.scope_eq {site : Site} {scope whole : Scope}
    {statements : List Statement} {placed : List Marked} {steps : List Step}
    (lowers : Statement.Lowers site scope statements whole placed steps) :
    whole = scope ++ statements.flatMap fun statement => statement.clause.declares := by
  induction lowers with
  | finish clause => exact clause.scope_eq.trans (by rw [List.flatMap_singleton]; rfl)
  | evaluate clause _ inductionHypothesis =>
      rw [inductionHypothesis, clause.scope_eq, List.flatMap_cons, List.append_assoc]
      rfl
  | guard _ _ _ inductionHypothesis =>
      rw [inductionHypothesis, List.flatMap_cons]
      rfl

theorem Block.Lowers.scope_eq {site : Site} {scope whole : Scope} {block : Block}
    {placed : List Marked} {steps : List Step}
    (lowers : block.Lowers site scope whole placed steps) : whole = scope ++ block.declares := by
  cases lowers with
  | empty _ => exact (List.append_nil scope).symm
  | statements lowers => exact lowers.scope_eq

theorem Clause.Lowers.nodup {site : Site} {scope extended : Scope} {clause : Clause}
    {code : List Instruction} {node : Node}
    (lowers : clause.Lowers site scope extended code node) (distinct : scope.Nodup) :
    extended.Nodup := by
  cases lowers with
  | expression _ => exact distinct
  | define _ declared _ => exact (Scope.declareAll_eq_ok declared).2 distinct
  | assign _ _ => exact distinct
  | update _ _ => exact distinct
  | updateWith _ _ _ => exact distinct

theorem Statement.Lowers.nodup {site : Site} {scope whole : Scope} {statements : List Statement}
    {placed : List Marked} {steps : List Step}
    (lowers : Statement.Lowers site scope statements whole placed steps)
    (distinct : scope.Nodup) : whole.Nodup := by
  induction lowers with
  | finish clause => exact clause.nodup distinct
  | evaluate clause _ inductionHypothesis => exact inductionHypothesis (clause.nodup distinct)
  | guard _ _ _ inductionHypothesis => exact inductionHypothesis distinct

theorem Block.Lowers.nodup {site : Site} {scope whole : Scope} {block : Block}
    {placed : List Marked} {steps : List Step}
    (lowers : block.Lowers site scope whole placed steps) (distinct : scope.Nodup) :
    whole.Nodup := by
  cases lowers with
  | empty _ => exact distinct
  | statements lowers => exact lowers.nodup distinct

namespace Meaning

/-! ### Expressions -/

/-- A frame of a program in which a block's code runs, its scope so far, and where the
evaluator stands. -/
structure Stands (H : Type) [Activations H] [Installed H] [Framed H] (W : World) (site : Site)
    (scope : Scope) (program frame : Nat) (standpoint : Standpoint) : Prop where
  environment : standpoint.environment = frame
  declared : standpoint.declared = scope
  known : ∃ library whole, W.libraries[program]? = some library ∧
    W.chains[frame]? = some (whole, site.outer) ∧ scope <+: whole ∧
    (∀ number body, site.closes number body →
      library.tasks[number]? = some ⟨body, whole :: site.outer, []⟩) ∧
    library.vocabulary = site.vocabulary ∧ library.limit = standpoint.limit ∧
    Vocabularies ((lexical H).Values W) site.vocabulary standpoint.vocabulary

variable {H : Type} [Activations H] [Installed H] [Framed H]
variable {W V : World} {site : Site} {scope : Scope} {program frame : Nat}
variable {standpoint : Standpoint}

theorem Stands.mono (later : W ≤ V) (stands : Stands H W site scope program frame standpoint) :
    Stands H V site scope program frame standpoint := by
  obtain ⟨environment, declared, library, whole, isLibrary, chain, counts, closes, vocabulary,
    limit, vocabularies⟩ := stands
  exact ⟨environment, declared, library, whole, getElem?_mono later.2.1 isLibrary,
    getElem?_mono later.1 chain, counts, closes, vocabulary, limit, vocabularies.mono later⟩

/-- The names that a statement declares count after it. -/
theorem Stands.after {clause : Clause} {extended whole : Scope}
    (stands : Stands H W site scope program frame standpoint)
    (declares : extended = scope ++ clause.declares)
    (chain : W.chains[frame]? = some (whole, site.outer)) (counts : extended <+: whole) :
    Stands H W site extended program frame (standpoint.after clause) := by
  obtain ⟨environment, declared, library, whole', isLibrary, chain', _, known⟩ := stands
  cases chain.symm.trans chain'
  refine ⟨environment, ?_, library, whole, isLibrary, chain, counts, known⟩
  rw [declares, ← declared]
  rfl

theorem Stands.load {word : String} {depth slot : Nat}
    (stands : Stands H W site scope program frame standpoint)
    (resolves : Scope.resolve? word (scope :: site.outer) = some (depth, slot)) :
    (lexical H).Actions W (lexical H).Values (Activations.load frame depth slot)
      (standpoint.read word) := by
  obtain ⟨rfl, rfl, _, _, _, chain, counts, _⟩ := stands
  exact Actions.load chain counts resolves

theorem Stands.save {word : String} {depth slot : Nat} {value value' : Value} (fresh : Bool)
    (stands : Stands H W site scope program frame standpoint)
    (resolves : Scope.resolve? word (scope :: site.outer) = some (depth, slot))
    (values : (lexical H).Values W value value') :
    (lexical H).Actions W (lexical H).Same (Activations.save fresh frame depth slot value)
      (standpoint.write fresh word value') := by
  obtain ⟨rfl, rfl, _, _, _, chain, counts, _⟩ := stands
  exact Actions.save fresh chain counts resolves values

theorem Stands.implicit (variant : Implicit)
    (stands : Stands H W site scope program frame standpoint) :
    (lexical H).Actions W (lexical H).Values (Activations.load frame 0 variant.slot)
      (Lexical.readImplicit standpoint.environment variant) := by
  obtain ⟨rfl, rfl, _, _, _, chain, _⟩ := stands
  exact Actions.readImplicit variant chain

theorem Stands.primitive {word : String} {value : Value}
    (stands : Stands H W site scope program frame standpoint)
    (isValue : site.vocabulary.value? word = some value) :
    ∃ value', standpoint.vocabulary.value? word = some value' ∧
      (lexical H).Values W value value' := by
  obtain ⟨_, _, _, _, _, _, _, _, _, _, vocabularies⟩ := stands
  have options := vocabularies.value? word
  rw [isValue] at options
  generalize standpoint.vocabulary.value? word = found at options
  cases options with
  | some values => exact ⟨_, rfl, values⟩

theorem Stands.closure {number : Nat} {body : Block}
    (stands : Stands H W site scope program frame standpoint)
    (closes : site.closes number body) :
    (lexical H).Actions W (lexical H).Functions (Action.make (.block program number frame)) (do
      let literal ← Lexical.note ⟨body, standpoint.vocabulary, standpoint.limit⟩
      Action.make (.block literal 0 standpoint.environment)) := by
  obtain ⟨rfl, rfl, library, whole, isLibrary, chain, _, tasks, vocabulary, limit,
    vocabularies⟩ := stands
  rw [← limit]
  exact Actions.closure isLibrary chain (tasks number body closes) (vocabulary ▸ vocabularies)

end Meaning

open Meaning

section Simulation

variable {H : Type} [Activations H] [Installed H] [Framed H]
variable {site : Site} {scope : Scope} {program frame : Nat}

mutual

theorem Expression.Lowers.evaluate {W : World} {standpoint : Standpoint}
    (stands : Stands H W site scope program frame standpoint) :
    ∀ {expression : Expression} {code : List Instruction} {node : Node},
    expression.Lowers site scope code node →
    (lexical H).Actions W (lexical H).Values (node.evaluate program frame)
      (expression.evaluate standpoint)
  | _, _, _, .number _ => Actions.pure (.number _)
  | _, _, _, .character _ => Actions.pure (.character _)
  | _, _, _, .string _ => Actions.pure (Values.ofString _)
  | _, _, _, .name resolves => stands.load resolves
  | .primitive word, _, _, .primitive isValue _ => by
      obtain ⟨value', isValue', values⟩ := stands.primitive isValue
      rw [Node.evaluate, Expression.evaluate, isValue']
      exact Actions.pure values
  | _, _, _, .implicit variant => stands.implicit variant
  | _, _, _, .list items => by
      refine Actions.bind (items.evaluate stands) fun _ _ _ lists => ?_
      exact Actions.pure (Values.list lists)
  | _, _, _, .call right function => by
      refine Actions.bind (right.evaluate stands) fun later _ _ arguments => ?_
      refine Actions.bind (function.evaluate (stands.mono later)) fun after _ _ operators => ?_
      exact operators.call (arguments.mono after) .none
  | _, _, _, .callBoth right function left => by
      refine Actions.bind (right.evaluate stands) fun first _ _ arguments => ?_
      refine Actions.bind (function.evaluate (stands.mono first)) fun second _ _ operators => ?_
      refine Actions.bind (left.evaluate (stands.mono (le_trans first second))) ?_
      intro _ third _ _ others
      exact (operators.mono third).call (arguments.mono (le_trans second third)) (.some others)
  | .modifyOne glyph operand, _, _, .modifyOne known lowers => by
      rw [Node.evaluate, Expression.evaluate, known]
      refine Actions.bind (lowers.evaluate stands) fun _ _ _ operands => ?_
      exact Actions.function (operands.modifyOne _)
  | .modifyTwo glyph left right, _, _, .modifyTwo known rights lefts => by
      rw [Node.evaluate, Expression.evaluate, known]
      refine Actions.bind (rights.evaluate stands) fun later _ _ seconds => ?_
      refine Actions.bind (lefts.evaluate (stands.mono later)) fun after _ _ firsts => ?_
      exact Actions.function (firsts.modifyTwo _ (seconds.mono after))
  | _, _, _, .atop right left => by
      refine Actions.bind (right.evaluate stands) fun first _ _ seconds => ?_
      refine Actions.bind seconds.toFunction fun second _ _ inner => ?_
      refine Actions.bind (left.evaluate (stands.mono (le_trans first second))) ?_
      intro _ third _ _ firsts
      refine Actions.bind firsts.toFunction fun fourth _ _ outer => ?_
      exact Actions.function (Actions.make (.atop outer (inner.mono (le_trans third fourth))))
  | _, _, _, .fork right middle left => by
      refine Actions.bind (right.evaluate stands) fun first _ _ thirds => ?_
      refine Actions.bind thirds.toFunction fun second _ _ after => ?_
      have known := stands.mono (le_trans first second)
      refine Actions.bind (middle.evaluate known) fun third _ _ seconds => ?_
      refine Actions.bind seconds.toFunction fun fourth _ _ between => ?_
      refine Actions.bind (left.evaluate (known.mono (le_trans third fourth))) ?_
      intro _ fifth _ _ firsts
      refine Actions.bind firsts.toFunction fun sixth _ _ before => ?_
      have present := le_trans fifth sixth
      exact Actions.function (Actions.make (.fork before (between.mono present)
        (after.mono (le_trans (le_trans third fourth) present))))
  | _, _, _, .block closes => by
      rw [Node.evaluate, Expression.evaluate]
      exact Actions.function (stands.closure closes)

theorem Expression.LowersAll.evaluate {W : World} {standpoint : Standpoint}
    (stands : Stands H W site scope program frame standpoint) :
    ∀ {items : List Expression} {code : List Instruction} {nodes : List Node},
    Expression.LowersAll site scope items code nodes →
    (lexical H).Actions W (Lists (lexical H).Values) (Node.evaluateEach program frame nodes)
      (Expression.evaluateAll standpoint items)
  | _, _, _, .nil => Actions.pure .nil
  | _, _, _, .cons item rest => by
      refine Actions.bind (item.evaluate stands) fun later _ _ first => ?_
      refine Actions.bind (rest.evaluate (stands.mono later)) fun after _ _ others => ?_
      exact Actions.pure (.cons (first.mono after) others)

end

mutual

theorem Target.Lowers.assign (fresh : Bool) {W : World} {standpoint : Standpoint}
    (stands : Stands H W site scope program frame standpoint) :
    ∀ {target : Target} {code : List Instruction} {place : Place},
    target.Lowers (scope :: site.outer) code place →
    ∀ {value value' : Value}, (lexical H).Values W value value' →
    (lexical H).Actions W (lexical H).Same (place.save fresh frame value)
      (target.assign standpoint fresh value')
  | _, _, _, .name resolves, _, _, values => stands.save fresh resolves values
  | .list targets, _, .list places, .list lowers, _, _, values => by
      cases values with
      | number number =>
          simp only [Place.save, Target.assign, lowers.length_eq]
          exact Actions.refuse rfl
      | character letter =>
          simp only [Place.save, Target.assign, lowers.length_eq]
          exact Actions.refuse rfl
      | function functions =>
          simp only [Place.save, Target.assign, lowers.length_eq]
          exact Actions.refuse rfl
      | array arrays =>
          rw [Place.save, Target.assign, lowers.length_eq]
          refine Actions.bind arrays.majorCells fun later row row' rows => ?_
          rw [rows.size_eq]
          split
          · exact lowers.assignAll fresh (stands.mono later) rows
          · exact Actions.refuse rfl

theorem Target.LowersAll.assignAll (fresh : Bool) {W : World} {standpoint : Standpoint}
    (stands : Stands H W site scope program frame standpoint) :
    ∀ {targets : List Target} {code : List Instruction} {places : List Place},
    Target.LowersAll (scope :: site.outer) targets code places →
    ∀ {values values' : List Value}, Lists (lexical H).Values W values values' →
    (lexical H).Actions W (lexical H).Same (Place.saveEach fresh frame places values)
      (Target.assignAll standpoint fresh targets values')
  | _, _, _, .nil, _, _, .nil => Actions.pure rfl
  | _, _, _, .nil, _, _, .cons _ _ => Actions.pure rfl
  | _, _, _, .cons _ _, _, _, .nil => Actions.pure rfl
  | _, _, _, .cons target rest, _, _, .cons first others => by
      refine Actions.bind (target.assign fresh stands first) fun later _ _ _ => ?_
      exact rest.assignAll fresh (stands.mono later) (Lists.mono later others)

end

/-- A modified variable is read where it is written. -/
theorem Target.Lowers.read {W : World} {standpoint : Standpoint}
    (stands : Stands H W site scope program frame standpoint) {name : String}
    {code : List Instruction} {place : Place}
    (lowers : (Target.name name).Lowers (scope :: site.outer) code place) :
    (lexical H).Actions W (lexical H).Values (place.load frame) (standpoint.read name) := by
  cases lowers with
  | name resolves => exact stands.load resolves

theorem Clause.Lowers.evaluate {W : World} {standpoint : Standpoint} {clause : Clause}
    {extended : Scope} {code : List Instruction} {node : Node}
    (lowers : clause.Lowers site scope extended code node)
    (stands : Stands H W site scope program frame standpoint)
    (after : Stands H W site extended program frame (standpoint.after clause)) :
    (lexical H).Actions W (lexical H).Values (node.evaluate program frame)
      (clause.evaluate standpoint) := by
  cases lowers with
  | expression result => exact result.evaluate stands
  | define value declared target =>
      refine Actions.bind (value.evaluate stands) fun later _ _ values => ?_
      refine Actions.bind (target.assign true (after.mono later) values) fun next _ _ _ => ?_
      exact Actions.pure (values.mono next)
  | assign value target =>
      refine Actions.bind (value.evaluate stands) fun later _ _ values => ?_
      refine Actions.bind (target.assign false (stands.mono later) values) fun next _ _ _ => ?_
      exact Actions.pure (values.mono next)
  | update function target =>
      refine Actions.bind (function.evaluate stands) fun first _ _ operators => ?_
      refine Actions.bind (target.read (stands.mono first)) fun second _ _ current => ?_
      refine Actions.bind ((operators.mono second).call current .none) fun third _ _ values => ?_
      have known := stands.mono (le_trans (le_trans first second) third)
      refine Actions.bind (target.assign false known values) fun fourth _ _ _ => ?_
      exact Actions.pure (values.mono fourth)
  | updateWith argument function target =>
      refine Actions.bind (argument.evaluate stands) fun first _ _ operands => ?_
      refine Actions.bind (function.evaluate (stands.mono first)) fun second _ _ operators => ?_
      have known := stands.mono (le_trans first second)
      refine Actions.bind (target.read known) fun third _ _ current => ?_
      refine Actions.bind ((operators.mono third).call (operands.mono (le_trans second third))
        (.some current)) fun fourth _ _ values => ?_
      refine Actions.bind (target.assign false (known.mono (le_trans third fourth)) values) ?_
      exact fun fifth _ _ _ => Actions.pure (values.mono fifth)

theorem Statement.Lowers.isPrefix {scope whole : Scope} {statements : List Statement}
    {placed : List Marked} {steps : List Step}
    (lowers : Statement.Lowers site scope statements whole placed steps) : scope <+: whole :=
  lowers.scope_eq ▸ List.prefix_append ..

/-- Statements are executed as they are evaluated, one after another. -/
theorem Statement.Lowers.evaluateAll (block : Nat) {scope whole : Scope}
    {statements : List Statement} {placed : List Marked} {steps : List Step}
    (lowers : Statement.Lowers site scope statements whole placed steps) {W : World}
    {standpoint : Standpoint} (stands : Stands H W site scope program frame standpoint)
    (chain : W.chains[frame]? = some (whole, site.outer)) :
    (lexical H).Actions W (lexical H).Values (Step.execute block program frame steps)
      (Statement.evaluateAll standpoint statements) := by
  induction lowers generalizing W standpoint with
  | finish clause =>
      have after := stands.after clause.scope_eq chain List.prefix_rfl
      rw [Step.execute, Statement.evaluateAll]
      exact Actions.located _ (clause.evaluate stands after)
  | @evaluate scope extended whole statement span rest code placed node steps clause others
      inductionHypothesis =>
      have after := stands.after clause.scope_eq chain others.isPrefix
      have separate : Statement.evaluateAll standpoint (.mk statement span :: rest) = (do
          let _ ← Action.located span (statement.evaluate standpoint)
          Statement.evaluateAll (standpoint.after statement) rest) := by
        cases others <;> cases clause <;> rfl
      rw [separate, Step.execute]
      refine Actions.bind (Actions.located span (clause.evaluate stands after)) ?_
      intro V later _ _ _
      exact inductionHypothesis (after.mono later) (getElem?_mono later.1 chain)
  | @guard scope whole test fallback span rest testCode fallbackCode placed testNode fallbackNode
      steps tests fallbacks others inductionHypothesis =>
      have separate : Statement.evaluateAll standpoint (.mk (.guard test fallback) span :: rest) =
          (do
            let holds ← Action.located span do
              let tested ← test.evaluate standpoint
              guardNumber tested
            if holds == 0.0 then Action.located span (fallback.evaluate standpoint)
            else Statement.evaluateAll standpoint rest) := by
        cases others <;> rfl
      have decided : (lexical H).Actions W (lexical H).Same
          (do
            let tested ← testNode.evaluate program frame
            guardNumber tested)
          (do
            let tested ← test.evaluate standpoint
            guardNumber tested) :=
        Actions.bind (tests.evaluate stands) fun _ _ _ values => Actions.lift values.guardNumber
      rw [separate, Step.execute]
      refine Actions.bind (Actions.located span decided) fun later holds _ same => ?_
      cases same
      split
      · exact Actions.located span (fallbacks.evaluate (stands.mono later))
      · exact inductionHypothesis (stands.mono later) (getElem?_mono later.1 chain)

theorem Block.Lowers.evaluateAll (block : Nat) {scope whole : Scope} {body : Block}
    {placed : List Marked} {steps : List Step}
    (lowers : body.Lowers site scope whole placed steps) {W : World}
    {standpoint : Standpoint} (stands : Stands H W site scope program frame standpoint)
    (chain : W.chains[frame]? = some (whole, site.outer)) :
    (lexical H).Actions W (lexical H).Values (Step.execute block program frame steps)
      (Statement.evaluateAll standpoint body.statements) := by
  cases lowers with
  | empty _ =>
      rw [Step.execute, Block.statements, Statement.evaluateAll]
      exact Actions.located _ (Actions.pure (.array Arrays.nil))
  | statements lowers => exact lowers.evaluateAll block stands chain

end Simulation

end PointFree
