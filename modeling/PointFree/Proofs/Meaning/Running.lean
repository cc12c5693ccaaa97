import PointFree.Proofs.Meaning.Preservation

/-!
Contract: running a program and evaluating its tree.

A function made of a block is entered as its literal is evaluated, so calls go the
same way however deep they are. With this the machine of a compiled block ends as
the evaluator does: with corresponding values and the same top-level bindings, or
with failures of one kind in the same statement.
-/

namespace PointFree

open Correspondence Meaning

/-! ### Entering blocks -/

theorem Routine.slots_toList {routine : Routine} {count : Nat}
    (size : routine.frameSize = count + reservedSlots) (this : Function) (right : Value)
    (left : Option Value) :
    (routine.slots this right left).toList =
      some (.function this) :: some right :: left :: List.replicate count none := by
  rw [slots, size]
  simp [reservedSlots, List.replicate_succ]

namespace Meaning

variable {H : Type} [Activations H] [Installed H] [Framed H]
variable {W : World} {program frame : Nat} {library : Library}

theorem Stands.start {index : Nat} {entry : BlockEntry} {task : Task} {whole : Scope}
    {placed : List Marked} {steps : List Step} {vocabulary : Vocabulary}
    (isLibrary : W.libraries[program]? = some library)
    (holds : library.program.Holds library.vocabulary library.tasks index entry task whole placed
      steps)
    (chain : W.chains[frame]? = some (whole, task.outer))
    (vocabularies : Vocabularies ((lexical H).Values W) library.vocabulary vocabulary) :
    Stands H W (library.program.site library.vocabulary library.tasks index task whole) task.scope
      program frame ⟨frame, task.scope, vocabulary, library.limit⟩ := by
  refine ⟨rfl, rfl, library, whole, isLibrary, chain, ?_, ?_, rfl, rfl, vocabularies⟩
  · exact holds.lowers.scope_eq ▸ List.prefix_append ..
  · exact fun number body closes => closes.2

/-- What is known of a routine and a literal when partners are entered. -/
structure Entered (H : Type) [Activations H] [Installed H] [Framed H] (program frame : Nat)
    (W : (lexical H).World) (routine : Routine) (literal : Literal) : Prop where
  known : ∃ library scope outer entry whole placed steps,
    W.libraries[program]? = some library ∧ W.chains[frame]? = some (scope, outer) ∧
    library.program.Holds library.vocabulary library.tasks routine.index entry
      ⟨literal.body, scope :: outer, []⟩ whole placed steps ∧
    routine = ⟨routine.index, whole.frameSize, library.limit, steps⟩ ∧
    literal.limit = library.limit ∧
    Vocabularies ((lexical H).Values W) library.vocabulary literal.vocabulary

theorem Actions.entered {block number environment : Nat}
    (partners : Partners W program block frame number environment) :
    (lexical H).Actions W (Entered H program frame) (Installed.routine program block)
      (Lexical.literal number) := by
  intro V later calling calling' calls memory memory' memories
  obtain ⟨stores, tidy⟩ := memories
  obtain ⟨_, library, literal, scope, outer, isLibrary, isLiteral, chain, isTask, limit⟩ :=
    partners.mono later
  obtain ⟨library', isLibrary', vocabularies⟩ := stores.vocabularies _ _ _ isLiteral
  cases isLibrary.symm.trans isLibrary'
  have inside : block < library.routines.length :=
    library.length ▸ (List.getElem?_eq_some_iff.1 isTask).1
  have isRoutine := List.getElem?_eq_getElem inside
  obtain ⟨entry, task, whole, placed, steps, isEntry, isTask', holds, same⟩ :=
    library.loaded block _ isRoutine
  cases isTask.symm.trans isTask'
  have found : (Framed.core memory.heap).programs[program]? = some library.routines := by
    have programs : (Framed.core memory.heap).programs.toList = V.libraries.map Library.routines :=
      stores.programs
    rw [← Array.getElem?_toList, programs, List.getElem?_map, isLibrary]
    rfl
  have remembered : memory'.heap.literals[number]? = some literal := by
    rw [← Array.getElem?_toList, stores.literals, List.getElem?_map, isLiteral]
    rfl
  rw [Lexical.literal_of_getElem? remembered]
  refine Ends.of_leaving (Framed.routine_of_getElem? found isRoutine) (Framed.routine_tidy tidy)
    le_rfl stores (.ok ⟨library, scope, outer, entry, whole, placed, steps, isLibrary, chain, ?_,
      ?_, limit, vocabularies⟩)
  · rw [same]
    exact holds
  · rw [same]

/-- Names that have no value yet stand for empty slots. -/
theorem undefined_slots {related : Value → Value → Prop} (names : List String) :
    List.Forall₂ (Option.Rel related) (List.replicate names.length none)
      ((names.map (·, (none : Option Value))).map Prod.snd) := by
  induction names with
  | nil => exact .nil
  | cons name names inductionHypothesis => exact .cons .none inductionHypothesis

/-- A new frame with the function, its arguments and no variable set yet. -/
theorem Frames.entered {related : Value → Value → Prop} {routine : Routine} {whole : Scope}
    {this this' : Function} {right right' : Value} {left left' : Option Value}
    (size : routine.frameSize = whole.frameSize) (distinct : whole.Nodup)
    (functions : related (.function this) (.function this')) (rights : related right right')
    (lefts : Option.Rel related left left') (parent : Nat) :
    Frames related whole ⟨routine.slots this right left, some parent⟩
      ⟨some (.function this'), some right', left', whole.map (·, none), some parent⟩ where
  slots := by
    rw [Routine.slots_toList size]
    exact .cons (.some functions) (.cons (.some rights) (.cons lefts (undefined_slots whole)))
  names := by
    rw [Environment.names, List.map_map]
    exact List.map_id whole
  distinct := distinct
  parent := rfl

/-- Functions made of a block and of its literal are entered alike. -/
theorem lexical_enters : Enters (lexical H) := by
  intro W stamp stamp' program block frame number block' environment stamps partners V later right
    right' left left' rights lefts
  cases partners.same
  rw [Installed.enter_eq, Lexical.enter_eq]
  refine Actions.bind (Actions.entered (partners.mono later)) ?_
  intro U after routine literal entered
  obtain ⟨library, scope, outer, entry, whole, placed, steps, isLibrary, chain, holds, same, limit,
    vocabularies⟩ := entered.known
  have size : routine.frameSize = whole.frameSize := by rw [same]
  have limits : routine.limit = literal.limit := by rw [same, limit]
  have toRun : routine.steps = steps := by rw [same]
  have declared : whole = literal.body.declares := holds.lowers.scope_eq.trans (List.nil_append _)
  have frames : Frames ((lexical H).Values U) whole
      ⟨routine.slots (.mk stamp (.block program block frame)) right left, some frame⟩
      ⟨some (.function (.mk stamp' (.block number block' frame))), some right', left',
        literal.body.declares.map (·, none), some frame⟩ :=
    declared ▸ Frames.entered size (holds.lowers.nodup List.nodup_nil)
      (.function (.mk stamps (.block (partners.mono (le_trans later after))))) (rights.mono after)
      (lefts.mono after) frame
  have linked : Linked U U.chains.length (some frame) (scope :: outer) :=
    .inside (List.getElem?_eq_some_iff.1 chain).1 chain
  rw [Routine.invoke, limits]
  refine Actions.nested _ ?_
  refine Actions.bind (Actions.newFrame linked frames) fun {T} next inner inner' stand => ?_
  obtain ⟨rfl, innerChain⟩ := stand
  have stands := Stands.start (getElem?_mono next.2.1 isLibrary) holds innerChain
    (vocabularies.mono next)
  rw [limit, Routine.run, toRun]
  exact holds.lowers.evaluateAll routine.index stands innerChain

end Meaning

/-! ### Whole programs -/

theorem Machine.topSlots_toList (globals : Array Value) (count : Nat) :
    (topSlots (globals.size + count + reservedSlots) globals).toList =
      none :: none :: none :: (globals.toList.map some ++ List.replicate count none) := by
  refine List.ext_getElem? fun slot => ?_
  rw [topSlots, List.toList_toArray, List.getElem?_map]
  match slot with
  | 0 | 1 | 2 => simp [reservedSlots]
  | place + 3 =>
      simp only [List.getElem?_cons_succ, List.getElem?_append, List.getElem?_replicate,
        List.getElem?_map, List.length_map, Array.length_toList, Array.getElem?_toList]
      by_cases given : place < globals.size
      · have inside : place + 3 < globals.size + count + reservedSlots := by
          rw [reservedSlots]
          omega
        rw [List.getElem?_range inside, if_pos given, Array.getElem?_eq_getElem given]
        simp [reservedSlots, given]
      · rw [if_neg given]
        by_cases inside : place - globals.size < count
        · have within : place + 3 < globals.size + count + reservedSlots := by
            rw [reservedSlots]
            omega
          rw [List.getElem?_range within, if_pos inside]
          simp [reservedSlots, given]
        · rw [if_neg inside, List.getElem?_eq_none]
          · rfl
          · rw [List.length_range, reservedSlots]
            omega

namespace Meaning

variable {H : Type} [Activations H] [Installed H] [Framed H] {W : World}

theorem length_given {externals : List String} {globals globals' : Array Value}
    (rows : Rows (lexical H).Values W globals globals') (count : globals.size = externals.length) :
    externals.length = (globals'.toList.map some).length := by
  rw [← count, rows.size_eq, List.length_map, Array.length_toList]

/-- The frame of the top level, with the values that the program is given. -/
theorem Frames.top {externals names : List String} {globals globals' : Array Value}
    (count : globals.size = externals.length) (distinct : (externals ++ names).Nodup)
    (rows : Rows (lexical H).Values W globals globals') :
    Frames ((lexical H).Values W) (externals ++ names)
      ⟨Machine.topSlots (Scope.frameSize (externals ++ names)) globals, none⟩
      ⟨none, none, none, externals.zip (globals'.toList.map some) ++ names.map (·, none), none⟩
    where
  slots := by
    have given := length_given rows count
    rw [Scope.frameSize, List.length_append, ← count, Machine.topSlots_toList, List.map_append,
      List.map_snd_zip (Nat.le_of_eq given.symm)]
    refine .cons .none (.cons .none (.cons .none (List.rel_append ?_ (undefined_slots names))))
    exact List.forall₂_map_left_iff.2 (List.forall₂_map_right_iff.2
      (rows.imp fun _ _ values => .some values))
  names := by
    have given := length_given rows count
    rw [Environment.names, List.map_append, List.map_fst_zip (Nat.le_of_eq given), List.map_map]
    exact congrArg (externals ++ ·) (List.map_id names)
  distinct := distinct
  parent := rfl

section

variable {machine : Machine} {block : Block} {externals : List String}
variable {program : Program} {vocabulary vocabulary' : Vocabulary} {tasks : List Task}
variable {limit : Nat} {entry : BlockEntry} {whole : Scope} {placed : List Marked}
variable {steps : List Step} {globals globals' : Array Value}

/-- The top level of a program that has been started. -/
theorem Actions.top
    (made : machine.IsMadeOf block externals program vocabulary tasks limit entry whole placed
      steps)
    {number : Nat} (isLibrary : W.libraries[number]? = some made.library)
    (vocabularies : Vocabularies ((lexical H).Values W) vocabulary vocabulary')
    (rows : Rows (lexical H).Values W globals globals') (count : globals.size = externals.length) :
    (lexical H).Actions W (Pairs (lexical H).Values (Stand H whole []))
      (do
        let frame ← Activations.newFrame (Machine.topSlots machine.top.frameSize globals) none
        let value ← machine.top.run number frame
        return (value, frame))
      (do
        let environment ← Lexical.newEnvironment ⟨none, none, none,
          externals.zip (globals'.toList.map some) ++ block.declares.map (·, none), none⟩
        let value ← Statement.evaluateAll ⟨environment, externals, vocabulary', limit⟩
          block.statements
        return (value, environment)) := by
  have declared : whole = externals ++ block.declares := made.holds.lowers.scope_eq
  have distinct : whole.Nodup := made.holds.lowers.nodup made.distinct
  have frames : Frames ((lexical H).Values W) whole
      ⟨Machine.topSlots machine.top.frameSize globals, none⟩
      ⟨none, none, none, externals.zip (globals'.toList.map some) ++ block.declares.map (·, none),
        none⟩ := by
    rw [made.top, declared]
    exact Frames.top count (declared ▸ distinct) rows
  refine Actions.bind (Actions.newFrame .top frames) fun {V} later frame frame' stand => ?_
  obtain ⟨rfl, chain⟩ := stand
  have stands := Stands.start (getElem?_mono later.2.1 isLibrary) made.holds chain
    (vocabularies.mono later)
  have evaluated := made.holds.lowers.evaluateAll machine.top.index stands chain
  rw [Routine.run, show machine.top.steps = steps by rw [made.top]]
  refine Actions.bind evaluated fun after value value' values => ?_
  exact Actions.pure ⟨values, rfl, getElem?_mono after.1 chain⟩

theorem Actions.run
    (made : machine.IsMadeOf block externals program vocabulary tasks limit entry whole placed
      steps)
    (vocabularies : Vocabularies ((lexical H).Values W) vocabulary vocabulary')
    (rows : Rows (lexical H).Values W globals globals') :
    (lexical H).Actions W (Pairs (lexical H).Values (Stand H whole [])) (machine.run globals)
      (block.evaluate vocabulary' externals limit globals') := by
  rw [Machine.run, Block.evaluate, made.count, rows.size_eq]
  split
  · exact Actions.refuse rfl
  · next count =>
      rw [Decidable.not_not, ← rows.size_eq] at count
      intro V later calling calling' calls memory memory' memories
      obtain ⟨stores, tidy⟩ := memories
      have grown : V ≤ V.withLibrary made.library := World.le_withLibrary made.library
      have counted : (Framed.core memory.heap).programs.size = V.libraries.length := by
        have programs : (Framed.core memory.heap).programs.toList =
          V.libraries.map Library.routines := stores.programs
        rw [← Array.length_toList, programs, List.length_map]
      have isLibrary : (V.withLibrary made.library).libraries[
          (Framed.core memory.heap).programs.size]? = some made.library :=
        counted ▸ List.getElem?_concat_length
      have installs : Memory.leaving Framed.core
          (Installed.install (machine.top :: machine.others) calling memory) = _ :=
        Framed.install_eq (machine.top :: machine.others)
      have tidy : Framed.IsTidy
          (Installed.install (machine.top :: machine.others) calling memory).2.heap :=
        Framed.install_tidy tidy
      generalize starts : Installed.install (machine.top :: machine.others) calling memory = started
        at installs tidy
      obtain ⟨outcome, after⟩ := started
      obtain ⟨rfl, left⟩ := Prod.mk.inj installs
      have installed : (lexical H).memories (V.withLibrary made.library) after memory' :=
        ⟨left ▸ stores.withLibrary, tidy⟩
      have since := le_trans later grown
      rw [Action.bind_of_ok starts]
      exact (Actions.top made isLibrary (vocabularies.mono since) (rows.mono since) count le_rfl
        (calls.mono grown) installed).back grown

end

/-- Names and their slots hold corresponding values, where they hold any. -/
def Bindings (related : Value → Value → Prop) (globals : List (String × Nat)) (store : Store)
    (memory' : Memory Lexical) (frame environment : Nat) : Prop :=
  ∀ name slot, (name, slot) ∈ globals → ∃ content, store.heap.slot? frame slot = some content ∧
    Option.Rel related content (memory'.heap.value? environment name)

theorem Stand.bindings {store : Store} {memory' : Memory Lexical} {whole : Scope}
    {frame environment : Nat} (stand : Stand H whole [] W frame environment)
    (stores : Stores (lexical H).Values W store memory') :
    Bindings ((lexical H).Values W) whole.addresses store memory' frame environment := by
  obtain ⟨rfl, chain⟩ := stand
  intro name slot member
  obtain ⟨⟨word, index⟩, isEntry, same⟩ := List.mem_map.1 member
  cases same
  have here : whole[index]? = some word := List.mem_zipIdx_iff_getElem?.1 isEntry
  have isOwner : Owner W store frame 0 (index + reservedSlots) word frame :=
    ⟨rfl, whole, [], chain, index, rfl, here⟩
  exact isOwner.content stores

/-- The machine of a compiled block, on any heap that keeps frames, against the evaluation
of the block. -/
theorem Ends.run {machine : Machine} {block : Block} {externals : List String}
    {program : Program} {vocabulary vocabulary' : Vocabulary} {tasks : List Task} {limit : Nat}
    {entry : BlockEntry} {whole : Scope} {placed : List Marked} {steps : List Step}
    {globals globals' : Array Value}
    (made : machine.IsMadeOf block externals program vocabulary tasks limit entry whole placed
      steps)
    {memory : Memory H} {memory' : Memory Lexical}
    (memories : (lexical H).memories W memory memory')
    (vocabularies : Vocabularies ((lexical H).Values W) vocabulary vocabulary')
    (rows : Rows (lexical H).Values W globals globals') :
    ∃ V, W ≤ V ∧ (lexical H).memories V ((machine.run globals).perform memory).2
        ((block.evaluate vocabulary' externals limit globals').perform memory').2 ∧
      (lexical H).Outcomes (fun result result' =>
          (lexical H).Values V result.1 result'.1 ∧
          Bindings ((lexical H).Values V) program.globals
            (((machine.run globals).perform memory).2.map Framed.core)
            ((block.evaluate vocabulary' externals limit globals').perform memory').2
            result.2 result'.2)
        ((machine.run globals).perform memory).1
        ((block.evaluate vocabulary' externals limit globals').perform memory').1 := by
  obtain ⟨V, later, between, outcomes⟩ :=
    (Actions.perform lexical_enters (Actions.run made vocabularies rows) memories).meets
  refine ⟨V, later, between, ?_⟩
  rw [made.globals]
  generalize ((machine.run globals).perform memory).1 = outcome at outcomes
  generalize ((block.evaluate vocabulary' externals limit globals').perform memory').1 = outcome'
    at outcomes
  cases outcomes with
  | ok pairs => exact .ok ⟨pairs.1, pairs.2.bindings between.1⟩
  | error failures => exact .error failures

/-- The machine against the evaluator. -/
abbrev compiled : Correspondence (Heap (List Routine)) Lexical :=
  lexical (Heap (List Routine))

end Meaning

/-- Started on corresponding memories, with corresponding vocabularies and global values,
the machine of a compiled block and the evaluation of the block end alike: with
corresponding values and the same top-level bindings, or with failures of one kind in
the same statement. -/
theorem Block.compile_preserves_meaning (block : Block) (vocabulary : Vocabulary)
    (externals : List String) (program : Program)
    (succeeds : block.compile vocabulary externals = .ok program) (limit : Nat) :
    ∃ machine, Machine.load program limit = .ok machine ∧
      ∀ (W : World) (memory : Store) (memory' : Memory Lexical) (vocabulary' : Vocabulary)
        (globals globals' : Array Value), compiled.memories W memory memory' →
        Vocabularies (compiled.Values W) vocabulary vocabulary' →
        Rows compiled.Values W globals globals' →
        ∃ (V : World) (ended : Outcome (Value × Nat) × Store)
          (ended' : Outcome (Value × Nat) × Memory Lexical), W ≤ V ∧
          (machine.run globals).perform memory = ended ∧
          (block.evaluate vocabulary' externals limit globals').perform memory' = ended' ∧
          compiled.memories V ended.2 ended'.2 ∧
          compiled.Outcomes (fun result result' =>
            compiled.Values V result.1 result'.1 ∧
            Bindings (compiled.Values V) program.globals ended.2 ended'.2 result.2 result'.2)
            ended.1 ended'.1 := by
  obtain ⟨machine, tasks, entry, whole, placed, steps, loaded, made⟩ :=
    Block.compile_machine succeeds limit
  refine ⟨machine, loaded, ?_⟩
  intro W memory memory' vocabulary' globals globals' memories vocabularies rows
  obtain ⟨V, later, between, outcomes⟩ := Ends.run made memories vocabularies rows
  exact ⟨V, _, _, later, rfl, rfl, between, outcomes⟩

/-- A block whose function changes a variable that the block is given. -/
def countingBlock : Block :=
  .mk [
    .mk (.define (.name "F") (.block (.mk [
      .mk (.modify "N" (.primitive "+") (some (.implicit .right))) none]))) none,
    .mk (.expression (.call (.name "F") (.number 1.0))) none,
    .mk (.expression (.name "N")) none]

theorem countingBlock_isOk : (countingBlock.compile (.standardFrom 0) ["N"]).isOk = true := by
  decide +kernel

namespace Meaning

variable {H : Type} [Activations H] [Installed H] [Framed H]

/-- Nothing has been started yet. -/
theorem memories_empty {memory : Memory H}
    (frames : (Framed.core memory.heap).frames.size = 0)
    (programs : (Framed.core memory.heap).programs.toList = [])
    (tidy : Framed.IsTidy memory.heap) :
    (lexical H).memories ⟨[], [], []⟩ memory ⟨⟨#[], #[]⟩, memory.nextStamp, memory.depth⟩ :=
  ⟨⟨rfl, rfl, programs, rfl, by nofun, frames, rfl, by nofun⟩, tidy⟩

theorem Vocabularies.standardFrom (W : World) (stamp : Nat) :
    Vocabularies ((lexical H).Values W) (.standardFrom stamp) (.standardFrom stamp) := by
  refine List.forall₂_same.2 fun entry member => ⟨rfl, ?_⟩
  obtain ⟨primitive, _, rfl⟩ := List.mem_map.1 member
  exact .function (.mk rfl (.primitive primitive.1))

end Meaning

theorem Block.compile_preserves_meaning_countingBlock :
    ∃ (program : Program) (machine : Machine) (V : World)
      (ended : Outcome (Value × Nat) × Store)
      (ended' : Outcome (Value × Nat) × Memory Lexical),
      countingBlock.compile (.standardFrom 0) ["N"] = .ok program ∧
      Machine.load program defaultCallLimit = .ok machine ∧
      (machine.run #[.number 2.0]).perform ⟨⟨#[], #[]⟩, Primitive.all.length, 0⟩ = ended ∧
      (countingBlock.evaluate (.standardFrom 0) ["N"] defaultCallLimit #[.number 2.0]).perform
        ⟨⟨#[], #[]⟩, Primitive.all.length, 0⟩ = ended' ∧
      compiled.Outcomes (fun result result' =>
        compiled.Values V result.1 result'.1 ∧
        Bindings (compiled.Values V) program.globals ended.2 ended'.2 result.2 result'.2)
        ended.1 ended'.1 := by
  obtain ⟨program, succeeds⟩ := Outcome.exists_of_isOk countingBlock_isOk
  obtain ⟨machine, loaded, ends⟩ :=
    Block.compile_preserves_meaning countingBlock (.standardFrom 0) ["N"] program succeeds
      defaultCallLimit
  obtain ⟨V, ended, ended', _, runs, evaluates, _, outcomes⟩ :=
    ends ⟨[], [], []⟩ ⟨⟨#[], #[]⟩, Primitive.all.length, 0⟩ _ (.standardFrom 0)
      #[.number 2.0] #[.number 2.0]
      (memories_empty rfl rfl trivial) (Vocabularies.standardFrom _ 0)
      (.cons (.number 2.0) .nil)
  exact ⟨program, machine, V, ended, ended', succeeds, loaded, runs, evaluates, outcomes⟩

end PointFree
