import PointFree.Proofs.Correspondence
import PointFree.Proofs.Stepping.Agreement

/-!
Contract: running a block and interpreting its instructions.

The statements of a block are run as their code is interpreted, and functions made of a
block are entered alike, so calls go the same way however deep they are. With this a
machine ends as the interpreter does: with corresponding values or with the same failure,
and with the same frames.
-/

namespace PointFree

open Correspondence Stepping

/-! ### Statements -/

section Statements

variable {constants : Array Value} {program frame : Nat} {locate : Nat → Option Span}
variable {span : Option Span} {position : Nat} {code rest : List Instruction}
variable {action : Action (Heap Bytecode) Value}

/-- Code of one statement that computes a value. -/
theorem Reading.interpret_computes (computes : Computes constants program frame code action)
    (plain : IsPlainCode code) (spanned : Spanned locate position (placedAt span code)) :
    Reading.interpret (Instruction.step constants program frame) locate false
        (Reading.ofList position (code ++ rest)) [] = (do
      let value ← Action.located span action
      Reading.interpret (Instruction.step constants program frame) locate false
        (Reading.ofList (position + codeWidth code) rest) [.value value]) := by
  rw [Reading.interpret_code plain spanned, computes, Action.located_bind, bind_assoc]
  exact congrArg (_ >>= ·) (funext fun value => pure_bind _ _)

/-- Code that computes a value after which nothing else runs. -/
theorem Reading.interpret_last (computes : Computes constants program frame code action)
    (plain : IsPlainCode code) (spanned : Spanned locate position (placedAt span code))
    {last : Instruction} (ends : last = .finish ∨ last = .fallback) :
    Reading.interpret (Instruction.step constants program frame) locate false
      (Reading.ofList position (code ++ last :: rest)) [] = Action.located span action := by
  rw [Reading.interpret_computes computes plain spanned]
  obtain rfl | rfl := ends
  · exact bind_pure _
  · exact bind_pure _

/-- The test of a guard decides whether the fallback runs or what comes after it. -/
theorem Reading.interpret_test (computes : Computes constants program frame code action)
    (plain : IsPlainCode code) (located : locate position = span)
    (spanned : Spanned locate (position + codeWidth [.test]) (placedAt span code))
    (tested : Value) :
    Reading.interpret (Instruction.step constants program frame) locate false
      (Reading.ofList position (.test :: (code ++ .fallback :: rest))) [.value tested] = (do
        let holds ← Action.located span (liftM (guardNumber tested))
        if holds == 0.0 then Action.located span action
        else
          Reading.interpret (Instruction.step constants program frame) locate false
            (Reading.ofList (position + codeWidth [.test] + codeWidth code +
              codeWidth [.fallback]) rest) []) := by
  rw [← Reading.interpret_last computes plain spanned (.inr rfl), ← Reading.interpret_skipped plain,
    ← located]
  rfl

variable {W : World} {site : Site}

/-- Statements are executed as their code is interpreted, one after another. -/
theorem Statement.Lowers.interprets (block : Nat) (stands : Stands W site program)
    {scope whole : Scope} {statements : List Statement} {placed : List Marked}
    {steps : List Step} (lowers : Statement.Lowers site scope statements whole placed steps)
    {position : Nat} (spanned : Spanned locate position placed) :
    stepping.Actions W stepping.Values (Step.execute block program frame steps)
      (Reading.interpret (Instruction.step site.constants program frame) locate false
        (Reading.ofList position (placed.map Prod.fst)) []) := by
  induction lowers generalizing position with
  | @finish _ _ _ span code _ clause =>
      obtain ⟨action, computes, agrees⟩ : Agrees W site.constants program frame _ _ :=
        clause.agrees stands
      have parts := Spanned.placedAt_append.1 spanned
      rw [map_placedAt, Step.execute,
        Reading.interpret_last computes clause.isPlain parts.1 (.inl rfl)]
      exact Actions.located span agrees
  | @evaluate _ _ _ _ span rest code placed node steps clause _ inductionHypothesis =>
      obtain ⟨action, computes, agrees⟩ : Agrees W site.constants program frame _ _ :=
        clause.agrees stands
      obtain ⟨here, later⟩ := Spanned.append.1 spanned
      have parts := Spanned.placedAt_append.1 here
      rw [map_placedAt, codeWidth_append, ← Nat.add_assoc] at later
      rw [List.map_append, map_placedAt, List.append_assoc,
        Reading.interpret_computes computes clause.isPlain parts.1, Step.execute]
      refine Actions.bind (Actions.located span agrees) fun after _ _ _ => ?_
      exact (inductionHypothesis later).mono after
  | @guard scope whole test fallback span rest testCode fallbackCode placed testNode fallbackNode
      steps tests fallbacks _ inductionHypothesis =>
      obtain ⟨testAction, testComputes, testAgrees⟩ :
        Agrees W site.constants program frame _ _ := tests.agrees stands
      obtain ⟨fallbackAction, fallbackComputes, fallbackAgrees⟩ :
        Agrees W site.constants program frame _ _ := fallbacks.agrees stands
      obtain ⟨here, later⟩ := Spanned.append.1 spanned
      rw [map_placedAt, codeWidth_append, ← Nat.add_assoc] at later
      obtain ⟨before, _⟩ := Spanned.placedAt_append.1 here
      obtain ⟨decides, spanned⟩ := Spanned.placedAt_append.1 before
      have located := decides.last
      have tested := (Spanned.placedAt_append.1 decides).1
      rw [codeWidth_append, ← Nat.add_assoc] at spanned
      rw [codeWidth_append, codeWidth_append, ← Nat.add_assoc, ← Nat.add_assoc] at later
      rw [List.map_append, map_placedAt, List.append_assoc, List.append_assoc, List.append_assoc,
        List.singleton_append, List.singleton_append,
        Reading.interpret_computes testComputes tests.isPlain tested, Step.execute,
        Action.located_bind, bind_assoc]
      refine Actions.bind (Actions.located span testAgrees) fun first tested tested' values => ?_
      rw [Reading.interpret_test fallbackComputes fallbacks.isPlain located spanned]
      refine Actions.bind (Actions.located span (Actions.lift values.guardNumber)) ?_
      intro V second holds _ same
      cases same
      have after := le_trans first second
      split
      · exact Actions.located span (fallbackAgrees.mono after)
      · exact (inductionHypothesis later).mono after

theorem Block.Lowers.interprets (block : Nat) (stands : Stands W site program)
    {scope whole : Scope} {body : Block} {placed : List Marked} {steps : List Step}
    (lowers : body.Lowers site scope whole placed steps) {position : Nat}
    (spanned : Spanned locate position placed) :
    stepping.Actions W stepping.Values (Step.execute block program frame steps)
      (Reading.interpret (Instruction.step site.constants program frame) locate false
        (Reading.ofList position (placed.map Prod.fst)) []) := by
  cases lowers with
  | @empty place found =>
      have computes : Computes site.constants program frame [.push place]
        (pure .nil : Action (Heap Bytecode) Value) := .push found
      have plain : IsPlainCode [.push place] := .single (by simp [Instruction.IsPlain])
      have ended : Reading.interpret (Instruction.step site.constants program frame) locate false
          (Reading.ofList position [.push place, .finish]) [] = Action.located none (pure .nil) :=
        Reading.interpret_last computes plain ⟨spanned.1, trivial⟩ (.inl rfl)
      rw [List.map_cons, List.map_cons, List.map_nil, ended, Step.execute]
      exact Actions.located none (Actions.pure (.array Arrays.nil))
  | statements lowers => exact lowers.interprets block stands spanned

end Statements

/-! ### Entering blocks -/

namespace Stepping

variable {W : World} {program frame : Nat} {library : Library}

theorem Stands.start {index : Nat} {task : Task} {whole : Scope}
    (isLibrary : W.libraries[program]? = some library)
    (vocabulary : ∀ entry ∈ library.vocabulary.entries, stepping.Values W entry.2 entry.2) :
    Stands W (library.program.site library.vocabulary library.tasks index task whole) program := by
  refine ⟨⟨library, isLibrary, fun number body closes => ?_⟩, vocabulary⟩
  exact (List.getElem?_eq_some_iff.1 closes.2).1

/-- A block of a program runs as its instructions are interpreted. -/
theorem Actions.block {index block : Nat} {entry : BlockEntry} {task : Task} {whole : Scope}
    {placed : List Marked} {steps : List Step}
    (isLibrary : W.libraries[program]? = some library)
    (holds : library.program.Holds library.vocabulary library.tasks index entry task whole placed
      steps)
    (vocabulary : ∀ entry ∈ library.vocabulary.entries, stepping.Values W entry.2 entry.2) :
    stepping.Actions W stepping.Values (Step.execute block program frame steps)
      (Bytecode.run ⟨library.program, library.limit⟩ program entry frame) := by
  rw [Bytecode.run, holds.reading]
  exact holds.lowers.interprets block (Stands.start isLibrary vocabulary) holds.spanned

/-- What is known of a routine and a block when partners are entered. -/
structure Entered (program : Nat) (W : stepping.World) (routine : Routine)
    (found : Bytecode × BlockEntry) : Prop where
  known : ∃ library index task whole placed steps,
    W.libraries[program]? = some library ∧ found.1 = ⟨library.program, library.limit⟩ ∧
    library.program.Holds library.vocabulary library.tasks index found.2 task whole placed steps ∧
    routine = ⟨index, whole.frameSize, library.limit, steps⟩ ∧
    ∀ entry ∈ library.vocabulary.entries, stepping.Values W entry.2 entry.2

theorem block_of_getElem? {memory : Memory (Heap Bytecode)} {calling : Call (Heap Bytecode)}
    {block : Nat} {code : Bytecode} {entry : BlockEntry}
    (isCode : memory.heap.programs[program]? = some code)
    (isEntry : code.program.blocks[block]? = some entry) :
    Bytecode.block program block calling memory = (.ok (code, entry), memory) := by
  have first : (get : Action (Heap Bytecode) _) calling memory = (.ok memory, memory) := rfl
  rw [Bytecode.block, Action.bind_of_ok first, isCode, Option.bind_some, isEntry]
  rfl

theorem Actions.entered {block : Nat} (isLibrary : W.libraries[program]? = some library)
    (inside : block < library.tasks.length) :
    stepping.Actions W (Entered program) (Installed.routine program block)
      (Bytecode.block program block) := by
  intro V later calling calling' calls memory memory' memories
  have stores : Stores stepping.Values V memory memory' := memories
  have isLibrary := getElem?_mono later.2.2.1 isLibrary
  have isRoutine := List.getElem?_eq_getElem (library.length.symm ▸ inside)
  obtain ⟨entry, task, whole, placed, steps, isEntry, _, holds, same⟩ :=
    library.loaded block _ isRoutine
  have found : memory.heap.programs[program]? = some library.routines := by
    rw [← Array.getElem?_toList, stores.routines, List.getElem?_map, isLibrary]
    rfl
  have found' : memory'.heap.programs[program]? = some ⟨library.program, library.limit⟩ := by
    rw [← Array.getElem?_toList, stores.codes, List.getElem?_map, isLibrary]
    rfl
  rw [block_of_getElem? found' isEntry]
  show stepping.Ends V _ (Heap.routine program block calling memory) _
  rw [Heap.routine_of_getElem? found isRoutine]
  exact .inr ⟨V, le_rfl, memories, .ok ⟨library, block, task, whole, placed, steps, isLibrary, rfl,
    holds, same, stores.vocabularies library (List.mem_of_getElem? isLibrary)⟩⟩

/-- The slots of a new frame: the function, its arguments and no variable set yet. -/
theorem Rows.entered (routine : Routine) (entry : BlockEntry)
    (size : routine.frameSize = entry.frameSize) {this this' : Function} {right right' : Value}
    {left left' : Option Value} (functions : stepping.Functions W this this')
    (rights : stepping.Values W right right') (lefts : Options stepping.Values W left left') :
    Rows (Options stepping.Values) W (routine.slots this right left)
      (Bytecode.slots entry this' right' left') := by
  rw [Routine.slots, Bytecode.slots, size]
  show Lists (Options stepping.Values) W (Array.toList _) (Array.toList _)
  simp only [Array.toList_setIfInBounds]
  have empty : Rows (Options stepping.Values) W (Array.replicate entry.frameSize none)
    (Array.replicate entry.frameSize none) := Rows.replicate _ .none
  have first := set_of_forall₂ empty 0 (.some (.function functions))
  exact set_of_forall₂ (set_of_forall₂ first 1 (.some rights)) 2 lefts

theorem stepping_enters : Enters stepping := by
  intro W stamp stamp' program block frame program' block' frame' stamps blocks V later right
    right' left left' rights lefts
  have known := blocks
  obtain ⟨rfl, rfl, rfl, library, isLibrary, inside⟩ := known
  have partners := stepping.blocks_mono later blocks
  rw [Installed.enter_eq]
  refine Actions.bind (Actions.entered (getElem?_mono later.2.2.1 isLibrary) inside) ?_
  intro U after routine found entered
  obtain ⟨library, index, task, whole, placed, steps, isLibrary, isCode, holds, same,
    vocabulary⟩ := entered.known
  obtain ⟨code, entry⟩ := found
  cases isCode
  cases same
  rw [Routine.invoke]
  refine Actions.nested _ ?_
  have functions : stepping.Functions V (.mk stamp (.block program block frame))
      (.mk stamp' (.block program block frame)) :=
    .mk (stepping.stamps_mono later stamps) (.block partners)
  have rows := Rows.entered ⟨index, whole.frameSize, library.limit, steps⟩ entry
    holds.frameSize.symm (functions.mono after) (rights.mono after) (lefts.mono after)
  refine Actions.bind (Framing.newFrame (some frame) rows) fun {T} next inner inner' same => ?_
  cases same
  refine Actions.block (getElem?_mono next.2.2.1 isLibrary) holds ?_
  exact fun entry member => (vocabulary entry member).mono next

end Stepping

/-! ### Whole programs -/

namespace Stepping

variable {W : World} {memory : Store} {memory' : Memory (Heap Bytecode)}

theorem World.le_withLibrary (W : World) (library : Library) : W ≤ W.withLibrary library :=
  ⟨List.Subset.refl _, List.Subset.refl _, List.prefix_append .., fun _ member _ => member⟩

theorem Stores.withLibrary {library : Library} (memories : stepping.memories W memory memory')
    (vocabulary : ∀ entry ∈ library.vocabulary.entries, stepping.Values W entry.2 entry.2) :
    stepping.memories (W.withLibrary library)
      { memory with heap.programs := memory.heap.programs.push library.routines }
      { memory' with
        heap.programs := memory'.heap.programs.push ⟨library.program, library.limit⟩ } := by
  have stores : Stores stepping.Values W memory memory' := memories
  have later := World.le_withLibrary W library
  refine { stores with routines := ?_, codes := ?_, vocabularies := ?_, frames := ?_ }
  · rw [Array.toList_push, stores.routines, World.withLibrary, List.map_append]
    rfl
  · rw [Array.toList_push, stores.codes, World.withLibrary, List.map_append]
    rfl
  · intro known member entry isEntry
    obtain old | new := List.mem_append.1 member
    · exact (stores.vocabularies known old entry isEntry).mono later
    · cases List.mem_singleton.1 new
      exact (vocabulary entry isEntry).mono later
  · exact stores.frames.imp fun _ _ frames => frames.imp fun values => values.mono later

/-- The same number, under which a program has been started. -/
def Started (library : Library) (V : stepping.World) (program program' : Nat) : Prop :=
  program = program' ∧ V.libraries[program]? = some library

theorem Actions.install (library : Library)
    (vocabulary : ∀ entry ∈ library.vocabulary.entries, stepping.Values W entry.2 entry.2) :
    stepping.Actions W (Started library) (Installed.install library.routines)
      (Heap.install ⟨library.program, library.limit⟩) := by
  intro V later calling calling' _ memory memory' memories
  have stores : Stores stepping.Values V memory memory' := memories
  have counted : memory.heap.programs.size = V.libraries.length := by
    rw [← Array.length_toList, stores.routines, List.length_map]
  have counted' : memory'.heap.programs.size = V.libraries.length := by
    rw [← Array.length_toList, stores.codes, List.length_map]
  refine .inr ⟨V.withLibrary library, World.le_withLibrary V library, ?_, .ok ⟨?_, ?_⟩⟩
  · exact Stores.withLibrary memories fun entry member => (vocabulary entry member).mono later
  · exact counted.trans counted'.symm
  · show (V.libraries ++ [library])[memory.heap.programs.size]? = some library
    rw [counted, List.getElem?_concat_length]

section

variable {machine : Machine} {block : Block} {externals : List String} {program : Program}
variable {vocabulary : Vocabulary} {tasks : List Task} {limit : Nat} {entry : BlockEntry}
variable {whole : Scope} {placed : List Marked} {steps : List Step}
variable {globals globals' : Array Value}

theorem Actions.run
    (made : machine.IsMadeOf block externals program vocabulary tasks limit entry whole placed
      steps)
    (known : ∀ entry ∈ vocabulary.entries, stepping.Values W entry.2 entry.2)
    (rows : Rows stepping.Values W globals globals') :
    stepping.Actions W (Pairs stepping.Values stepping.Same) (machine.run globals)
      (Bytecode.interpret ⟨program, limit⟩ globals') := by
  rw [Machine.run, Bytecode.interpret, made.loaded.externals, rows.size_eq]
  split
  · exact Actions.refuse rfl
  · rw [made.first]
    refine Actions.bind (Actions.install made.library known) fun first number number' started => ?_
    obtain ⟨rfl, isLibrary⟩ := started
    have slots := Rows.topSlots entry.frameSize (rows.mono first)
    rw [made.top, ← made.holds.frameSize]
    refine Actions.bind (Framing.newFrame none slots) fun second frame frame' same => ?_
    cases same
    have since := le_trans first second
    refine Actions.bind (Actions.block (getElem?_mono second.2.2.1 isLibrary) made.holds ?_) ?_
    · exact fun entry member => (known entry member).mono since
    · exact fun _ _ _ values => Actions.pure ⟨values, rfl⟩

end

/-- The end of a run against the end of an interpretation: the same failure, or values that
correspond, with top-level frames of the same number. Data is the same on both sides. -/
inductive Alike (V : World) : Outcome (Value × Nat) → Outcome (Value × Nat) → Prop where
  | ok {value value' : Value} (frame : Nat) :
      stepping.Values V value value' → (value.IsData → value = value') →
      Alike V (.ok (value, frame)) (.ok (value', frame))
  | error (failure : Failure) : Alike V (.error failure) (.error failure)

theorem Alike.of_outcomes {V : World} {outcome outcome' : Outcome (Value × Nat)}
    (outcomes : stepping.Outcomes (Pairs stepping.Values stepping.Same V) outcome outcome') :
    Alike V outcome outcome' := by
  have literal : stepping.Literal := fun _ _ => id
  cases outcomes with
  | @ok result result' pairs =>
      obtain ⟨value, frame⟩ := result
      obtain ⟨value', frame'⟩ := result'
      obtain ⟨values, same⟩ := pairs
      cases same
      exact .ok frame values (values.eq_of_isData literal)
  | error failures =>
      rw [failures.eq_of_literal literal]
      exact .error _

end Stepping

/-- Started on corresponding memories with the same data, the machine of a compiled block and
the interpreter of its instructions end alike: with corresponding values or with the same
failure, and in both cases with the same frames. An array whose elements still take a call
corresponds to none; no run makes one of what is given here. -/
theorem Block.compile_interpreted (block : Block) (vocabulary : Vocabulary)
    (externals : List String) (program : Program)
    (succeeds : block.compile vocabulary externals = .ok program) (limit : Nat) :
    ∃ machine, Machine.load program limit = .ok machine ∧
      ∀ (W : World) (memory : Store) (memory' : Memory (Heap Bytecode)) (globals : Array Value),
        stepping.memories W memory memory' →
        (∀ entry ∈ vocabulary.entries, stepping.Values W entry.2 entry.2) →
        (∀ value ∈ globals, value.IsData) →
        ∃ (V : World) (ended : Outcome (Value × Nat) × Store)
          (ended' : Outcome (Value × Nat) × Memory (Heap Bytecode)), W ≤ V ∧
          (machine.run globals).perform memory = ended ∧
          (Bytecode.interpret ⟨program, limit⟩ globals).perform memory' = ended' ∧
          stepping.memories V ended.2 ended'.2 ∧
          Alike V ended.1 ended'.1 ∧
          List.Forall₂ (Frames (stepping.Values V)) ended.2.heap.frames.toList
            ended'.2.heap.frames.toList := by
  obtain ⟨machine, tasks, entry, whole, placed, steps, loaded, made⟩ :=
    Block.compile_machine succeeds limit
  refine ⟨machine, loaded, ?_⟩
  intro W memory memory' globals memories known isData
  have rows : Rows stepping.Values W globals globals :=
    List.forall₂_same.2 fun value member =>
      Values.of_isData (isData value (Array.mem_toList_iff.1 member))
  obtain ⟨V, later, between, outcomes⟩ :=
    (Actions.perform stepping_enters (Actions.run made known rows) memories).meets
  exact ⟨V, _, _, later, rfl, rfl, between, .of_outcomes outcomes, Stores.frames between⟩

/-- A block with a train of data and a function literal, a guard and a changed variable. -/
def trainBlock : Block :=
  .mk [
    .mk (.define (.name "F") (.fork (.number 1.0) (.primitive "+") (.block (.mk [
      .mk (.modify "A" (.primitive "+") (some (.implicit .right))) none])))) none,
    .mk (.guard (.name "A") (.number 0.0)) none,
    .mk (.expression (.call (.name "F") (.name "A"))) none]

theorem trainBlock_isOk : (trainBlock.compile (.standardFrom 0) ["A"]).isOk = true := by
  decide +kernel

namespace Stepping

/-- As many functions as there are so far, each its own partner. -/
def World.start (count : Nat) : World where
  links := (List.range count).map fun stamp => (stamp, stamp)
  held := []
  libraries := []
  unique := by
    intro first isFirst second isSecond
    obtain ⟨_, _, rfl⟩ := List.mem_map.1 isFirst
    obtain ⟨_, _, rfl⟩ := List.mem_map.1 isSecond
    exact Iff.rfl

theorem memories_start (count depth : Nat) :
    stepping.memories (World.start count) ⟨⟨#[], #[]⟩, count, depth⟩
      ⟨⟨#[], #[]⟩, count, depth⟩ where
  links := by
    intro link member
    obtain ⟨stamp, inside, rfl⟩ := List.mem_map.1 member
    exact ⟨List.mem_range.1 inside, List.mem_range.1 inside⟩
  held := nofun
  depth := rfl
  routines := rfl
  codes := rfl
  vocabularies := nofun
  frames := .nil

theorem known_standardFrom :
    ∀ entry ∈ (Vocabulary.standardFrom 0).entries,
      stepping.Values (World.start Primitive.all.length) entry.2 entry.2 := by
  intro entry member
  obtain ⟨⟨primitive, place⟩, isPrimitive, rfl⟩ := List.mem_map.1 (List.mem_toArray.1 member)
  have inside : place < Primitive.all.length :=
    (List.getElem?_eq_some_iff.1 (List.mem_zipIdx_iff_getElem?.1 isPrimitive)).1
  refine .function (.mk (List.mem_map.2 ⟨place, List.mem_range.2 inside, ?_⟩)
    (.primitive primitive))
  rw [Nat.zero_add]

end Stepping

theorem Block.compile_interpreted_trainBlock :
    ∃ (program : Program) (machine : Machine) (V : World)
      (ended : Outcome (Value × Nat) × Store)
      (ended' : Outcome (Value × Nat) × Memory (Heap Bytecode)),
      trainBlock.compile (.standardFrom 0) ["A"] = .ok program ∧
      Machine.load program defaultCallLimit = .ok machine ∧
      (machine.run #[.number 2.0]).perform ⟨⟨#[], #[]⟩, Primitive.all.length, 0⟩ = ended ∧
      (Bytecode.interpret ⟨program, defaultCallLimit⟩ #[.number 2.0]).perform
        ⟨⟨#[], #[]⟩, Primitive.all.length, 0⟩ = ended' ∧
      Alike V ended.1 ended'.1 ∧
      List.Forall₂ (Frames (stepping.Values V)) ended.2.heap.frames.toList
        ended'.2.heap.frames.toList := by
  obtain ⟨program, succeeds⟩ := Outcome.exists_of_isOk trainBlock_isOk
  obtain ⟨machine, loaded, runs⟩ :=
    Block.compile_interpreted trainBlock (.standardFrom 0) ["A"] program succeeds defaultCallLimit
  have isData : ∀ value ∈ #[Value.number 2.0], value.IsData := by
    intro value member
    cases List.mem_singleton.1 (Array.mem_toList_iff.2 member)
    exact .number 2.0
  obtain ⟨V, ended, ended', _, performs, interprets, _, alike, frames⟩ :=
    runs _ _ _ #[.number 2.0] (memories_start Primitive.all.length 0) known_standardFrom isData
  exact ⟨program, machine, V, ended, ended', succeeds, loaded, performs, interprets, alike, frames⟩

end PointFree
