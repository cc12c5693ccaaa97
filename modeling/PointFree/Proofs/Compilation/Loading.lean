import PointFree.Machine
import PointFree.Proofs.Compilation.Assembly

/-!
Contract: compiled programs are loaded.

Every block of a compiled program is a lowering of the body of its task, laid down
where the table of blocks says. So it is read back as it was laid down, its replay
succeeds, and a machine can be made of the program whatever the limit on calls.
-/

namespace PointFree

/-- What the code of a block of a program may refer to. -/
def Program.site (program : Program) (vocabulary : Vocabulary) (tasks : List Task) (index : Nat)
    (task : Task) (whole : Scope) : Site :=
  ⟨vocabulary, program.constants, task.outer, Numbers tasks index (whole :: task.outer)⟩

/-- A block of a program as it was compiled from its task. -/
structure Program.Holds (program : Program) (vocabulary : Vocabulary) (tasks : List Task)
    (index : Nat) (entry : BlockEntry) (task : Task) (whole : Scope) (placed : List Marked)
    (steps : List Step) : Prop where
  emits : ∃ located, task.body.emit vocabulary task.outer task.scope = .ok (located, whole)
  lowers : task.body.Lowers (program.site vocabulary tasks index task whole) task.scope whole
    placed steps
  frameSize : entry.frameSize = whole.frameSize
  reading : program.reading entry.start = Reading.ofList entry.start (placed.map Prod.fst)
  spanned : Spanned program.locationAt entry.start placed

/-- A program that has been compiled, block by block, from the given tasks. -/
structure Program.IsCompiled (program : Program) (vocabulary : Vocabulary) (tasks : List Task) :
    Prop where
  blocks : program.blocks.length = tasks.length
  holds : ∀ (index : Nat) (entry : BlockEntry), program.blocks[index]? = some entry →
    ∃ task whole placed steps, tasks[index]? = some task ∧
      program.Holds vocabulary tasks index entry task whole placed steps

/-! ### Compiled programs -/

theorem Clause.Lowers.finish_mem {site : Site} {scope whole : Scope} {statements : List Statement}
    {placed : List Marked} {steps : List Step}
    (lowers : Statement.Lowers site scope statements whole placed steps) :
    Instruction.finish ∈ placed.map Prod.fst := by
  induction lowers with
  | finish =>
      rw [map_placedAt]
      exact List.mem_append_right _ (.head _)
  | evaluate _ _ inductionHypothesis =>
      rw [List.map_append]
      exact List.mem_append_right _ inductionHypothesis
  | guard _ _ _ inductionHypothesis =>
      rw [List.map_append]
      exact List.mem_append_right _ inductionHypothesis

theorem Block.Lowers.finish_mem {site : Site} {scope whole : Scope} {block : Block}
    {placed : List Marked} {steps : List Step}
    (lowers : block.Lowers site scope whole placed steps) :
    Instruction.finish ∈ placed.map Prod.fst := by
  cases lowers with
  | empty => exact .tail _ (.head _)
  | statements lowers => exact Clause.Lowers.finish_mem lowers

theorem Spanned.of_spans (before after : List (Option Span)) (placed : List Marked) :
    Spanned (fun position => (before ++ placed.flatMap Marked.spans ++ after)[position]?.join)
      before.length placed := by
  induction placed generalizing before with
  | nil => trivial
  | cons first rest inductionHypothesis =>
      obtain ⟨instruction, span⟩ := first
      have positive : 0 < instruction.width := by
        rw [Instruction.width]
        omega
      have later := inductionHypothesis (before ++ Marked.spans (instruction, span))
      rw [List.length_append, Marked.spans, List.length_replicate] at later
      rw [List.flatMap_cons, Marked.spans, ← List.append_assoc]
      refine ⟨?_, later⟩
      dsimp only
      rw [List.append_assoc, List.append_assoc, List.getElem?_append_right (Nat.le_refl _),
        Nat.sub_self, List.getElem?_append_left (by simpa using positive),
        List.getElem?_replicate_of_lt positive]
      rfl

theorem Program.reading_of_standing {program : Program} {start : Nat} {placed : List Marked}
    (standing : Standing program.code.toList program.locations.toList start placed)
    (returns : Instruction.finish ∈ placed.map Prod.fst) :
    program.reading start = Reading.ofList start (placed.map Prod.fst) := by
  obtain ⟨before, after, rfl, code⟩ := standing.code
  rw [Program.reading, code, List.append_assoc, List.drop_left, ← List.flatMap_map]
  refine Reading.ofWords_flatMap ?_ returns before.length after
  intro instruction member
  obtain ⟨entry, isPlaced, rfl⟩ := List.mem_map.1 member
  exact standing.fits entry isPlaced

theorem Program.spanned_of_standing {program : Program} {start : Nat} {placed : List Marked}
    (standing : Standing program.code.toList program.locations.toList start placed) :
    Spanned program.locationAt start placed := by
  obtain ⟨before, after, rfl, locations⟩ := standing.locations
  have same : program.locationAt = fun position =>
      (before ++ placed.flatMap Marked.spans ++ after)[position]?.join := by
    funext position
    rw [Program.locationAt, ← Array.getElem?_toList, locations]
  rw [same]
  exact Spanned.of_spans before after placed

theorem Assembled.isCompiled {vocabulary : Vocabulary} {assembly : Assembly} {tasks : List Task}
    (assembled : Assembled vocabulary assembly tasks []) (externals : Nat)
    (globals : List (String × Nat)) :
    Program.IsCompiled ⟨assembly.code, assembly.constants, assembly.blocks, assembly.locations,
      externals, globals⟩ vocabulary tasks where
  blocks := assembled.blocks
  holds := by
    intro index entry found
    have inside : index < tasks.length :=
      assembled.blocks ▸ (List.getElem?_eq_some_iff.1 found).1
    have isTask := List.getElem?_eq_getElem inside
    obtain ⟨located, whole, placed, emits, frameSize, standing, fills⟩ :=
      assembled.built index tasks[index] entry isTask found
    rw [List.append_nil] at fills
    have known : Site.Known ⟨vocabulary, assembly.constants, tasks[index].outer,
        Numbers tasks index (whole :: tasks[index].outer)⟩ :=
      fun _ _ => getElem?_of_isPrefix assembled.known
    obtain ⟨steps, lowers⟩ := Block.emit_lowers known emits fills
    exact ⟨_, whole, placed, steps, isTask, ⟨located, emits⟩, lowers, frameSize,
      Program.reading_of_standing standing lowers.finish_mem,
      Program.spanned_of_standing standing⟩

/-! ### Loading -/

theorem Program.Holds.loadBlock {program : Program} {vocabulary : Vocabulary}
    {tasks : List Task} {index : Nat} {entry : BlockEntry} {task : Task} {whole : Scope}
    {placed : List Marked} {steps : List Step} (blocks : program.blocks.length = tasks.length)
    (holds : program.Holds vocabulary tasks index entry task whole placed steps) (limit : Nat) :
    program.loadBlock limit index entry = .ok ⟨index, whole.frameSize, limit, steps⟩ := by
  have provides : (program.site vocabulary tasks index task whole).Provides
      ⟨program.constants, fun block => index < block && block < program.blocks.length⟩ := by
    refine ⟨rfl, ?_⟩
    rintro number body ⟨above, found⟩
    have inside := (List.getElem?_eq_some_iff.1 found).1
    simp [above, blocks, inside]
  rw [Program.loadBlock, holds.reading, holds.lowers.replayAll_eq provides holds.spanned,
    holds.frameSize]
  rfl

theorem Program.loadFrom_eq_ok {program : Program} {limit index : Nat}
    {entries : List BlockEntry}
    (loads : ∀ (offset : Nat) (entry : BlockEntry), entries[offset]? = some entry →
      ∃ routine, program.loadBlock limit (index + offset) entry = .ok routine) :
    ∃ routines, program.loadFrom limit index entries = .ok routines ∧
      routines.length = entries.length ∧
      ∀ (offset : Nat) (routine : Routine), routines[offset]? = some routine →
        ∃ entry, entries[offset]? = some entry ∧
          program.loadBlock limit (index + offset) entry = .ok routine := by
  induction entries generalizing index with
  | nil => exact ⟨[], rfl, rfl, by simp⟩
  | cons entry rest inductionHypothesis =>
      obtain ⟨routine, first⟩ := loads 0 entry rfl
      have shifted (offset : Nat) (entry : BlockEntry) (found : rest[offset]? = some entry) :
          ∃ routine, program.loadBlock limit (index + 1 + offset) entry = .ok routine := by
        rw [Nat.add_assoc, Nat.add_comm 1]
        exact loads (offset + 1) entry found
      obtain ⟨routines, others, length, each⟩ := inductionHypothesis shifted
      refine ⟨routine :: routines, ?_, congrArg (· + 1) length, ?_⟩
      · exact Outcome.bind_eq_ok.2 ⟨routines, others, Outcome.bind_eq_ok.2 ⟨routine, first, rfl⟩⟩
      · intro offset found isFound
        cases offset with
        | zero =>
            cases isFound
            exact ⟨entry, rfl, first⟩
        | succ offset =>
            rw [← Nat.add_assoc, Nat.add_right_comm]
            exact each offset found isFound

/-- A machine whose routines are those of a compiled program. -/
structure Machine.IsLoaded (machine : Machine) (program : Program) (vocabulary : Vocabulary)
    (tasks : List Task) (limit : Nat) : Prop where
  externals : machine.externals = program.externals
  length : (machine.top :: machine.others).length = program.blocks.length
  routine : ∀ (index : Nat) (routine : Routine),
    (machine.top :: machine.others)[index]? = some routine →
      ∃ entry task whole placed steps, program.blocks[index]? = some entry ∧
        tasks[index]? = some task ∧
        program.Holds vocabulary tasks index entry task whole placed steps ∧
        routine = ⟨index, whole.frameSize, limit, steps⟩

theorem Program.IsCompiled.load {program : Program} {vocabulary : Vocabulary} {tasks : List Task}
    (compiled : program.IsCompiled vocabulary tasks) (filled : program.blocks ≠ [])
    (limit : Nat) :
    ∃ machine, Machine.load program limit = .ok machine ∧
      machine.IsLoaded program vocabulary tasks limit := by
  have loads (offset : Nat) (entry : BlockEntry) (found : program.blocks[offset]? = some entry) :
      ∃ routine, program.loadBlock limit (0 + offset) entry = .ok routine := by
    obtain ⟨task, whole, placed, steps, isTask, holds⟩ := compiled.holds offset entry found
    rw [Nat.zero_add]
    exact ⟨_, holds.loadBlock compiled.blocks limit⟩
  obtain ⟨routines, loaded, length, each⟩ := Program.loadFrom_eq_ok loads
  cases routines with
  | nil => exact absurd (List.length_eq_zero_iff.1 length.symm) filled
  | cons top others =>
      refine ⟨⟨top, others, program.externals⟩, ?_, rfl, length, ?_⟩
      · rw [Machine.load, if_neg (by simpa using filled)]
        exact Outcome.bind_eq_ok.2 ⟨_, loaded, rfl⟩
      · intro index routine isRoutine
        obtain ⟨entry, isEntry, fromEntry⟩ := each index routine isRoutine
        obtain ⟨task, whole, placed, steps, isTask, holds⟩ :=
          compiled.holds index entry isEntry
        rw [Nat.zero_add, holds.loadBlock compiled.blocks limit] at fromEntry
        cases fromEntry
        exact ⟨entry, task, whole, placed, steps, isEntry, isTask, holds, rfl⟩

/-- A machine made of a block that was compiled as a whole program. -/
structure Machine.IsMadeOf (machine : Machine) (block : Block) (externals : List String)
    (program : Program) (vocabulary : Vocabulary) (tasks : List Task) (limit : Nat)
    (entry : BlockEntry) (whole : Scope) (placed : List Marked) (steps : List Step) : Prop where
  compiled : program.IsCompiled vocabulary tasks
  loaded : machine.IsLoaded program vocabulary tasks limit
  first : program.blocks[0]? = some entry
  holds : program.Holds vocabulary tasks 0 entry ⟨block, [], externals⟩ whole placed steps
  top : machine.top = ⟨0, whole.frameSize, limit, steps⟩
  count : machine.externals = externals.length
  distinct : externals.Nodup
  globals : program.globals = whole.addresses

/-- A program that has been started, with what it was compiled from. -/
structure Library where
  program : Program
  vocabulary : Vocabulary
  tasks : List Task
  limit : Nat
  routines : List Routine
  compiled : program.IsCompiled vocabulary tasks
  loaded : ∀ (index : Nat) (routine : Routine), routines[index]? = some routine →
    ∃ entry task whole placed steps, program.blocks[index]? = some entry ∧
      tasks[index]? = some task ∧
      program.Holds vocabulary tasks index entry task whole placed steps ∧
      routine = ⟨index, whole.frameSize, limit, steps⟩
  length : routines.length = tasks.length

def Machine.IsMadeOf.library {machine : Machine} {block : Block} {externals : List String}
    {program : Program} {vocabulary : Vocabulary} {tasks : List Task} {limit : Nat}
    {entry : BlockEntry} {whole : Scope} {placed : List Marked} {steps : List Step}
    (made : machine.IsMadeOf block externals program vocabulary tasks limit entry whole placed
      steps) : Library :=
  ⟨program, vocabulary, tasks, limit, machine.top :: machine.others, made.compiled,
    made.loaded.routine, made.loaded.length.trans made.compiled.blocks⟩

/-- A machine can be made of whatever `compile` returns, under every limit on the depth
of calls. -/
theorem Block.compile_machine {block : Block} {vocabulary : Vocabulary}
    {externals : List String} {program : Program}
    (compiled : block.compile vocabulary externals = .ok program) (limit : Nat) :
    ∃ machine tasks entry whole placed steps, Machine.load program limit = .ok machine ∧
      machine.IsMadeOf block externals program vocabulary tasks limit entry whole placed
        steps := by
  obtain ⟨assembly, tasks, located, whole, assembled, isTop, emits, distinct, rfl⟩ :=
    Block.compile_eq_ok compiled
  have isCompiled := assembled.isCompiled externals.length whole.addresses
  generalize isProgram : (⟨assembly.code, assembly.constants, assembly.blocks,
    assembly.locations, externals.length, whole.addresses⟩ : Program) = program at isCompiled
  have filled : program.blocks ≠ [] := by
    rw [← List.length_pos_iff, isCompiled.blocks]
    exact (List.getElem?_eq_some_iff.1 isTop).1
  obtain ⟨machine, loaded, isLoaded⟩ := isCompiled.load filled limit
  obtain ⟨entry, task, whole', placed, steps, isEntry, isTask, holds, top⟩ :=
    isLoaded.routine 0 machine.top rfl
  cases isTop.symm.trans isTask
  obtain ⟨located', emits'⟩ := holds.emits
  cases emits.symm.trans emits'
  refine ⟨machine, tasks, entry, whole, placed, steps, loaded, ?_⟩
  cases isProgram
  exact ⟨isCompiled, isLoaded, isEntry, holds, top, isLoaded.externals, distinct, rfl⟩

/-- Whatever `compile` returns is loaded, under every limit on the depth of calls, and
has as many routines as the table has blocks. -/
theorem Block.compile_loads (block : Block) (vocabulary : Vocabulary) (externals : List String)
    (program : Program) (compiled : block.compile vocabulary externals = .ok program)
    (limit : Nat) :
    ∃ machine, Machine.load program limit = .ok machine ∧
      machine.blockCount = program.blocks.length := by
  obtain ⟨machine, tasks, entry, whole, placed, steps, loaded, made⟩ :=
    Block.compile_machine compiled limit
  exact ⟨machine, loaded, made.loaded.length⟩

/-- A block that defines a function and calls it. -/
def callingBlock : Block :=
  .mk [
    .mk (.define (.name "F") (.block (.mk [.mk (.expression (.implicit .right)) none]))) none,
    .mk (.expression (.call (.name "F") (.number 1.0))) none]

theorem callingBlock_isOk : (callingBlock.compile .empty []).isOk = true := by
  decide +kernel

theorem Block.compile_loads_callingBlock :
    ∃ program machine, callingBlock.compile .empty [] = .ok program ∧
      Machine.load program defaultCallLimit = .ok machine ∧
      machine.blockCount = program.blocks.length := by
  obtain ⟨program, compiled⟩ := Outcome.exists_of_isOk callingBlock_isOk
  obtain ⟨machine, loaded, count⟩ :=
    Block.compile_loads callingBlock .empty [] program compiled defaultCallLimit
  exact ⟨program, machine, compiled, loaded, count⟩

end PointFree
