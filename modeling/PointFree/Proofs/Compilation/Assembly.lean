import PointFree.Proofs.Compilation.Placement

/-!
Contract: what holds while a program is put together.

The work queue of a compilation has a budget, the number of function literals in
the tree. What a block emits mentions each literal directly in it once, so the
literals of the bodies it mentions make up the rest of the count.

`Assembled` is the invariant of the work queue: every block that is done has its
code in place, and a function literal's number is that of a task that is done or
waits. One task keeps the invariant, and so does the whole run, which has no task
left at its end because every task beyond the first is a function literal that was
counted before.
-/

namespace PointFree

/-- Number of function literals in what is emitted, nested ones included. -/
def literalsOf (bodies : List Block) : Nat :=
  (bodies.map fun body => body.literals + 1).sum

theorem literalsOf_append (first second : List Block) :
    literalsOf (first ++ second) = literalsOf first + literalsOf second := by
  rw [literalsOf, literalsOf, literalsOf, List.map_append, List.sum_append]

/-- The number of function literals that emitted instructions mention. -/
def emittedLiterals (emitted : List Emitted) : Nat :=
  literalsOf (emitted.filterMap Emitted.body?)

theorem emittedLiterals_append (first second : List Emitted) :
    emittedLiterals (first ++ second) = emittedLiterals first + emittedLiterals second := by
  rw [emittedLiterals, emittedLiterals, emittedLiterals, List.filterMap_append, literalsOf_append]

theorem emittedLiterals_instruction (emitted : List Emitted) (instruction : Instruction) :
    emittedLiterals (emitted ++ [.instruction instruction]) = emittedLiterals emitted :=
  emittedLiterals_append emitted _

section Counting

variable {surrounding : Surrounding}

mutual

theorem Expression.Unrolls.literals : ∀ {expression : Expression} {emitted : List Emitted},
    expression.Unrolls surrounding emitted → emittedLiterals emitted = expression.literals
  | _, _, .number _ | _, _, .character _ | _, _, .string _ => rfl
  | _, _, .name _ | _, _, .primitive _ | _, _, .implicit _ => rfl
  | _, _, .list items => by
      rw [emittedLiterals_instruction, items.literals, Expression.literals]
  | _, _, .call right function => by
      rw [emittedLiterals_instruction, emittedLiterals_append, right.literals, function.literals,
        Expression.literals, Nat.add_comm]
  | _, _, .callBoth right function left => by
      rw [emittedLiterals_instruction, emittedLiterals_append, emittedLiterals_append,
        right.literals, function.literals, left.literals, Expression.literals]
      omega
  | _, _, .modifyOne _ operand => by
      rw [emittedLiterals_instruction, operand.literals, Expression.literals]
  | _, _, .modifyTwo _ right left => by
      rw [emittedLiterals_instruction, emittedLiterals_append, right.literals, left.literals,
        Expression.literals, Nat.add_comm]
  | _, _, .atop right left => by
      rw [emittedLiterals_instruction, emittedLiterals_append, right.literals, left.literals,
        Expression.literals, Nat.add_comm]
  | _, _, .fork right middle left => by
      rw [emittedLiterals_instruction, emittedLiterals_append, emittedLiterals_append,
        right.literals, middle.literals, left.literals, Expression.literals]
      omega
  | _, _, .block _ => Nat.add_zero _

theorem Expression.UnrollsAll.literals : ∀ {items : List Expression} {emitted : List Emitted},
    Expression.UnrollsAll surrounding items emitted →
    emittedLiterals emitted = Expression.literalsOfAll items
  | _, _, .nil => rfl
  | _, _, .cons item rest => by
      rw [emittedLiterals_append, item.literals, rest.literals, Expression.literalsOfAll]

end

mutual

theorem Target.Unrolls.literals {scopes : List Scope} : ∀ {target : Target}
    {emitted : List Emitted}, target.Unrolls scopes emitted → emittedLiterals emitted = 0
  | _, _, .name _ => rfl
  | _, _, .list targets => by rw [emittedLiterals_instruction, targets.literals]

theorem Target.UnrollsAll.literals {scopes : List Scope} : ∀ {targets : List Target}
    {emitted : List Emitted}, Target.UnrollsAll scopes targets emitted →
    emittedLiterals emitted = 0
  | _, _, .nil => rfl
  | _, _, .cons target rest => by
      rw [emittedLiterals_append, target.literals, rest.literals]

end

end Counting

/-- The bodies that a statement mentions, whatever ends it. -/
theorem Clause.literals_of_emit {vocabulary : Vocabulary} {outer : List Scope}
    {scope extended : Scope} {last : Bool} {clause : Clause} {emitted : List Emitted}
    (emits : clause.emit vocabulary outer scope last = .ok (emitted, extended)) :
    emittedLiterals emitted = clause.literals := by
  obtain ⟨body, rfl, unrolls⟩ | ⟨test, fallback, tested, otherwise, rfl, _, _, rfl, testUnrolls,
    fallbackUnrolls⟩ := Clause.unrolls_of_emit emits
  · rw [closing, emittedLiterals_instruction]
    cases unrolls with
    | expression result => exact result.literals
    | define value _ target | assign value target | update value target =>
        rw [emittedLiterals_instruction, emittedLiterals_append, value.literals, target.literals,
          Clause.literals, Nat.add_zero]
    | updateWith argument function target =>
        rw [emittedLiterals_instruction, emittedLiterals_append, emittedLiterals_append,
          argument.literals, function.literals, target.literals, Clause.literals, Nat.add_zero,
          Nat.add_comm]
  · rw [emittedLiterals_instruction, emittedLiterals_append, emittedLiterals_instruction,
      testUnrolls.literals, fallbackUnrolls.literals, Clause.literals]

theorem mentioned_map (emitted : List Emitted) (span : Option Span) :
    mentioned (emitted.map (·, span)) = emitted.filterMap Emitted.body? := by
  rw [mentioned, List.filterMap_map]
  rfl

theorem mentioned_append (first second : List Located) :
    mentioned (first ++ second) = mentioned first ++ mentioned second :=
  List.filterMap_append ..

theorem Statement.literals_of_emitAll {vocabulary : Vocabulary} {outer : List Scope}
    {scope whole : Scope} {statements : List Statement} {located : List Located}
    (emits : Statement.emitAll vocabulary outer scope statements = .ok (located, whole)) :
    literalsOf (mentioned located) = Statement.literalsOfAll statements := by
  induction statements generalizing scope located with
  | nil =>
      cases emits
      rfl
  | cons statement rest inductionHypothesis =>
      obtain ⟨emitted, extended, others, clauseEmits, restEmit, rfl⟩ :=
        Statement.emitAll_cons_eq_ok emits
      have first := Clause.literals_of_emit clauseEmits
      obtain ⟨clause, span⟩ := statement
      rw [mentioned_append, literalsOf_append, inductionHypothesis restEmit, mentioned_map,
        Statement.literalsOfAll, Statement.literals]
      exact congrArg (· + _) first

theorem Block.literals_of_emit {vocabulary : Vocabulary} {outer : List Scope}
    {scope whole : Scope} {block : Block} {located : List Located}
    (emits : block.emit vocabulary outer scope = .ok (located, whole)) :
    literalsOf (mentioned located) = block.literals := by
  obtain ⟨statements⟩ := block
  cases statements with
  | nil =>
      cases emits
      rfl
  | cons statement rest => exact Statement.literals_of_emitAll emits

end PointFree

namespace PointFree

/-- Code that starts at a position of an assembly. -/
structure Standing (code : List UInt32) (locations : List (Option Span)) (start : Nat)
    (placed : List Marked) : Prop where
  code : ∃ before after, before.length = start ∧
    code = before ++ (placed.flatMap fun entry => entry.1.words) ++ after
  locations : ∃ before after, before.length = start ∧
    locations = before ++ placed.flatMap Marked.spans ++ after
  fits : ∀ entry ∈ placed, entry.1.Fits

theorem Standing.extend {code more : List UInt32} {locations others : List (Option Span)}
    {start : Nat} {placed : List Marked} (standing : Standing code locations start placed)
    (codes : code <+: more) (spans : locations <+: others) :
    Standing more others start placed := by
  obtain ⟨before, after, length, rfl⟩ := standing.code
  obtain ⟨before', after', length', rfl⟩ := standing.locations
  obtain ⟨rest, rfl⟩ := codes
  obtain ⟨rest', rfl⟩ := spans
  exact ⟨⟨before, after ++ rest, length, by simp⟩, ⟨before', after' ++ rest', length', by simp⟩,
    standing.fits⟩

/-- The number of a function literal in a block: that of a later task with its body
and the scopes around it. -/
def Numbers (tasks : List Task) (index : Nat) (outer : List Scope) (number : Nat) (body : Block) :
    Prop :=
  index < number ∧ tasks[number]? = some ⟨body, outer, []⟩

/-- A task that has been performed. -/
def Built (vocabulary : Vocabulary) (assembly : Assembly) (tasks : List Task) (index : Nat)
    (task : Task) (entry : BlockEntry) : Prop :=
  ∃ located whole placed,
    task.body.emit vocabulary task.outer task.scope = .ok (located, whole) ∧
    entry.frameSize = whole.frameSize ∧
    Standing assembly.code.toList assembly.locations.toList entry.start placed ∧
    List.Forall₂ (FillsAt assembly.constants (Numbers tasks index (whole :: task.outer)))
      located placed

theorem Built.extend {vocabulary : Vocabulary} {assembly after : Assembly}
    {tasks more : List Task} {index : Nat} {task : Task} {entry : BlockEntry}
    (built : Built vocabulary assembly tasks index task entry) (later : tasks <+: more)
    (code : assembly.code.toList <+: after.code.toList)
    (locations : assembly.locations.toList <+: after.locations.toList)
    (constants : assembly.constants.toList <+: after.constants.toList) :
    Built vocabulary after more index task entry := by
  obtain ⟨located, whole, placed, emits, size, standing, fills⟩ := built
  refine ⟨located, whole, placed, emits, size, standing.extend code locations,
    fills.imp fun _ _ => FillsAt.imp (fun _ _ => getElem?_of_isPrefix constants) ?_⟩
  rintro number body ⟨above, found⟩
  obtain ⟨rest, rfl⟩ := later
  refine ⟨above, ?_⟩
  rw [List.getElem?_append_left (List.getElem?_eq_some_iff.1 found).1]
  exact found

structure Assembled (vocabulary : Vocabulary) (assembly : Assembly) (done waiting : List Task) :
    Prop where
  blocks : assembly.blocks.length = done.length
  numbered : assembly.numbered = done.length + waiting.length
  parallel : assembly.locations.size = assembly.code.size
  known : vocabulary.values.toList <+: assembly.constants.toList
  built : ∀ (index : Nat) (task : Task) (entry : BlockEntry), done[index]? = some task →
    assembly.blocks[index]? = some entry →
    Built vocabulary assembly (done ++ waiting) index task entry

theorem Assembled.start (vocabulary : Vocabulary) (task : Task) :
    Assembled vocabulary (.start vocabulary) [] [task] where
  blocks := rfl
  numbered := rfl
  parallel := rfl
  known := List.prefix_rfl
  built := by simp

theorem Laid.parallel {located : List Located} {before after : Assembly} {placed : List Marked}
    (laid : Laid located before after placed)
    (parallel : before.locations.size = before.code.size) :
    after.locations.size = after.code.size := by
  have widths : (placed.flatMap Marked.spans).length =
      (placed.flatMap fun entry => entry.1.words).length := by
    rw [List.length_flatMap, List.length_flatMap]
    refine congrArg List.sum (List.map_congr_left fun entry _ => ?_)
    rw [Marked.spans, List.length_replicate, Instruction.length_words]
  have code := congrArg List.length laid.code
  have locations := congrArg List.length laid.locations
  rw [List.length_append, Array.length_toList, Array.length_toList] at code locations
  omega

theorem Assembly.perform_eq_ok {vocabulary : Vocabulary} {assembly after : Assembly}
    {task : Task} {new : List Task} {whole : Scope}
    (performed : assembly.perform vocabulary task = .ok (after, new, whole)) :
    ∃ located between bodies,
      task.body.emit vocabulary task.outer task.scope = .ok (located, whole) ∧
      located.foldlM Assembly.layEmitted (assembly, []) = .ok (between, bodies) ∧
      after = { between with
        blocks := between.blocks ++ [⟨assembly.code.size, whole.frameSize⟩] } ∧
      new = bodies.map fun body => ⟨body, whole :: task.outer, []⟩ := by
  obtain ⟨⟨located, scope⟩, emits, performed⟩ := Outcome.bind_eq_ok.1 performed
  obtain ⟨⟨between, bodies⟩, lays, finished⟩ := Outcome.bind_eq_ok.1 performed
  injection finished with same
  injection same with first second
  injection second with second third
  subst third
  exact ⟨located, between, bodies, emits, lays, first.symm, second.symm⟩

/-- One task keeps the invariant. -/
theorem Assembled.perform {vocabulary : Vocabulary} {assembly after : Assembly}
    {done waiting new : List Task} {task : Task} {whole : Scope}
    (assembled : Assembled vocabulary assembly done (task :: waiting))
    (performed : assembly.perform vocabulary task = .ok (after, new, whole)) :
    Assembled vocabulary after (done ++ [task]) (waiting ++ new) ∧
      ∃ located, task.body.emit vocabulary task.outer task.scope = .ok (located, whole) ∧
        new.map Task.body = mentioned located := by
  obtain ⟨located, between, bodies, emits, lays, rfl, rfl⟩ := Assembly.perform_eq_ok performed
  obtain ⟨placed, laid, rfl⟩ := Laid.foldlM lays
  rw [List.nil_append]
  refine ⟨⟨?_, ?_, laid.parallel assembled.parallel, assembled.known.trans laid.constants, ?_⟩,
    located, emits, List.map_map.trans (List.map_id _)⟩
  · rw [List.length_append, List.length_append, laid.blocks, assembled.blocks]
    rfl
  · rw [laid.numbered, assembled.numbered, List.length_append, List.length_append,
      List.length_map, List.length_cons, List.length_singleton]
    omega
  · intro index found entry isTask isEntry
    have codes : assembly.code.toList <+: between.code.toList := ⟨_, laid.code.symm⟩
    have spans : assembly.locations.toList <+: between.locations.toList :=
      ⟨_, laid.locations.symm⟩
    rw [laid.blocks] at isEntry
    by_cases old : index < done.length
    · rw [List.getElem?_append_left old] at isTask
      rw [List.getElem?_append_left (assembled.blocks ▸ old)] at isEntry
      have later (new : List Task) :
          done ++ task :: waiting <+: done ++ [task] ++ (waiting ++ new) := ⟨new, by simp⟩
      exact (assembled.built index found entry isTask isEntry).extend (later _) codes spans
        laid.constants
    · have bound := (List.getElem?_eq_some_iff.1 isTask).1
      rw [List.length_append, List.length_singleton] at bound
      obtain rfl : index = done.length := by omega
      rw [List.getElem?_concat_length] at isTask
      rw [← assembled.blocks, List.getElem?_concat_length] at isEntry
      cases isTask
      cases isEntry
      refine ⟨located, whole, placed, emits, rfl, ⟨⟨assembly.code.toList, [], rfl, ?_⟩,
        ⟨assembly.locations.toList, [], assembled.parallel, ?_⟩, laid.fits⟩,
        laid.fills.imp fun _ _ => FillsAt.imp (fun _ _ found => found) ?_⟩
      · rw [List.append_nil, laid.code]
      · rw [List.append_nil, laid.locations]
      · rintro number body ⟨bound, isBody⟩
        have numbered := assembled.numbered
        rw [List.length_cons] at numbered
        refine ⟨by omega, ?_⟩
        rw [← List.append_assoc, List.getElem?_append_right (by simp; omega), List.getElem?_map]
        rw [show number - (done ++ [task] ++ waiting).length = number - assembly.numbered by
          simp; omega, isBody]
        rfl

/-- The invariant at the end of the run: nothing waits any more. -/
theorem Assembled.performAll {vocabulary : Vocabulary} {budget : Nat}
    {assembly final : Assembly} {done waiting : List Task}
    (assembled : Assembled vocabulary assembly done waiting)
    (enough : literalsOf (waiting.map Task.body) ≤ budget)
    (performed : Assembly.performAll vocabulary budget assembly waiting = .ok final) :
    ∃ tasks, Assembled vocabulary final tasks [] ∧ done ++ waiting <+: tasks := by
  induction budget generalizing assembly done waiting with
  | zero =>
      cases waiting with
      | nil =>
          cases performed
          exact ⟨done, assembled, by simp⟩
      | cons task waiting => simp [literalsOf] at enough
  | succ budget inductionHypothesis =>
      cases waiting with
      | nil =>
          cases performed
          exact ⟨done, assembled, by simp⟩
      | cons task waiting =>
          obtain ⟨⟨after, new, whole⟩, first, performed⟩ := Outcome.bind_eq_ok.1 performed
          obtain ⟨kept, located, emits, bodies⟩ := assembled.perform first
          have counted := Block.literals_of_emit emits
          have fewer : literalsOf ((waiting ++ new).map Task.body) ≤ budget := by
            rw [List.map_append, literalsOf_append, bodies, counted]
            rw [List.map_cons, literalsOf, List.map_cons, List.sum_cons] at enough
            rw [literalsOf]
            omega
          obtain ⟨tasks, ended, contains⟩ := inductionHypothesis kept fewer performed
          refine ⟨tasks, ended, List.IsPrefix.trans ⟨new, ?_⟩ contains⟩
          simp

theorem Scope.declareAll_eq_ok {scope extended : Scope} {names : List String}
    (declared : scope.declareAll names = .ok extended) :
    extended = scope ++ names ∧ (scope.Nodup → extended.Nodup) := by
  induction names generalizing scope with
  | nil =>
      cases declared
      exact ⟨(List.append_nil _).symm, id⟩
  | cons name names inductionHypothesis =>
      rw [declareAll, List.foldlM_cons] at declared
      obtain ⟨next, first, rest⟩ := Outcome.bind_eq_ok.1 declared
      rw [declare] at first
      split at first
      · cases first
      · next new =>
          cases first
          obtain ⟨same, distinct⟩ := inductionHypothesis rest
          refine ⟨by rw [same, List.append_assoc]; rfl, fun nodup => distinct ?_⟩
          rw [List.nodup_append]
          refine ⟨nodup, by simp, ?_⟩
          rintro word member _ (_ | ⟨_, ⟨⟩⟩) rfl
          exact new member

/-- What is known of a program that has been compiled: it comes of a list of tasks,
the first of which is the whole. -/
theorem Block.compile_eq_ok {block : Block} {vocabulary : Vocabulary} {externals : List String}
    {program : Program} (compiled : block.compile vocabulary externals = .ok program) :
    ∃ assembly tasks located whole,
      Assembled vocabulary assembly tasks [] ∧
      tasks[0]? = some ⟨block, [], externals⟩ ∧
      block.emit vocabulary [] externals = .ok (located, whole) ∧
      externals.Nodup ∧
      program = ⟨assembly.code, assembly.constants, assembly.blocks, assembly.locations,
        externals.length, whole.addresses⟩ := by
  obtain ⟨scope, declared, compiled⟩ := Outcome.bind_eq_ok.1 compiled
  obtain ⟨same, distinct⟩ := Scope.declareAll_eq_ok declared
  obtain rfl : externals = scope := same.symm
  obtain ⟨⟨after, new, whole⟩, first, compiled⟩ := Outcome.bind_eq_ok.1 compiled
  obtain ⟨assembly, performed, done⟩ := Outcome.bind_eq_ok.1 compiled
  cases done
  obtain ⟨kept, located, emits, bodies⟩ :=
    (Assembled.start vocabulary ⟨block, [], externals⟩).perform first
  have enough : literalsOf (new.map Task.body) ≤ block.literals :=
    Nat.le_of_eq ((congrArg literalsOf bodies).trans (Block.literals_of_emit emits))
  obtain ⟨tasks, ended, contains⟩ := kept.performAll enough performed
  refine ⟨assembly, tasks, located, whole, ended, ?_, emits, distinct .nil, rfl⟩
  obtain ⟨rest, rfl⟩ := contains
  rfl

end PointFree
