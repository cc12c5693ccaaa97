import PointFree.Proofs.Acceptance.Capacity

/-!
Contract: why a program is refused.

A task of the work queue is refused for a fault of its own block or of a function
literal in it. One task of the queue either ends the run, with a fault of its own block
or an operand that does not fit in a word, or hands on the faults of its literals as
those of the tasks it leaves. So a run of the queue reports the faults of the tasks that
wait at its start, and what keeps operands small holds from one task to the next.
-/

namespace PointFree

/-! ### Literals of a block -/

/-- The body of a function literal. -/
def Expression.body? : Expression → Option Block
  | .block body => some body
  | _ => none

def Expression.bodies (parts : List Expression) : List Block :=
  parts.filterMap Expression.body?

def Emitted.bodies (emitted : List Emitted) : List Block :=
  emitted.filterMap Emitted.body?

/-- The bodies of the function literals that stand in a block, but not in another one of
them. -/
def Block.bodies (block : Block) : List Block :=
  block.statements.flatMap fun statement => Expression.bodies statement.clause.parts

theorem Expression.bodies_append (first second : List Expression) :
    bodies (first ++ second) = bodies first ++ bodies second :=
  List.filterMap_append ..

theorem Emitted.bodies_append (first second : List Emitted) :
    bodies (first ++ second) = bodies first ++ bodies second :=
  List.filterMap_append ..

theorem Emitted.bodies_concat (emitted : List Emitted) (instruction : Instruction) :
    bodies (emitted ++ [.instruction instruction]) = bodies emitted :=
  (bodies_append ..).trans (List.append_nil _)

section Emission

variable {surrounding : Surrounding}

mutual

/-- What is emitted mentions the literals of the expression in their order. -/
theorem Expression.Unrolls.bodies : ∀ {expression : Expression} {emitted : List Emitted},
    expression.Unrolls surrounding emitted →
    Emitted.bodies emitted = Expression.bodies expression.parts
  | _, _, .number _ | _, _, .character _ | _, _, .string _ | _, _, .block _ => rfl
  | _, _, .name _ | _, _, .primitive _ | _, _, .implicit _ => rfl
  | _, _, .list items => by
      rw [Emitted.bodies_concat, items.bodies]
      rfl
  | _, _, .call right function => by
      rw [Emitted.bodies_concat, Emitted.bodies_append, right.bodies, function.bodies,
        ← Expression.bodies_append]
      rfl
  | _, _, .callBoth right function left => by
      rw [Emitted.bodies_concat, Emitted.bodies_append, Emitted.bodies_append, right.bodies,
        function.bodies, left.bodies, ← Expression.bodies_append, ← Expression.bodies_append]
      rfl
  | _, _, .modifyOne _ operand => by
      rw [Emitted.bodies_concat, operand.bodies]
      rfl
  | _, _, .modifyTwo _ right left | _, _, .atop right left => by
      rw [Emitted.bodies_concat, Emitted.bodies_append, right.bodies, left.bodies,
        ← Expression.bodies_append]
      rfl
  | _, _, .fork right middle left => by
      rw [Emitted.bodies_concat, Emitted.bodies_append, Emitted.bodies_append, right.bodies,
        middle.bodies, left.bodies, ← Expression.bodies_append, ← Expression.bodies_append]
      rfl

theorem Expression.UnrollsAll.bodies : ∀ {items : List Expression} {emitted : List Emitted},
    Expression.UnrollsAll surrounding items emitted →
    Emitted.bodies emitted = Expression.bodies (Expression.partsOfAll items)
  | _, _, .nil => rfl
  | _, _, .cons item rest => by
      rw [Emitted.bodies_append, item.bodies, rest.bodies, ← Expression.bodies_append]
      rfl

end

/-- Targets mention no literals. -/
theorem Target.Unrolls.bodies {target : Target} {scopes : List Scope} {emitted : List Emitted}
    (unrolls : target.Unrolls scopes emitted) : Emitted.bodies emitted = [] := by
  have none := unrolls.literals
  rw [emittedLiterals, literalsOf] at none
  cases mentions : emitted.filterMap Emitted.body? with
  | nil => exact mentions
  | cons body rest => simp [mentions] at none

end Emission

section Statements

variable {vocabulary : Vocabulary} {outer : List Scope} {scope : Scope}

theorem Expression.bodies_pair (first second : Expression) :
    bodies ([first, second].flatMap Expression.parts) =
      bodies first.parts ++ bodies second.parts := by
  rw [List.flatMap_cons, List.flatMap_singleton, bodies_append]

theorem Clause.bodies_of_emit {clause : Clause} {last : Bool} {emitted : List Emitted}
    {extended : Scope} (emits : clause.emit vocabulary outer scope last = .ok (emitted, extended)) :
    Emitted.bodies emitted = Expression.bodies clause.parts := by
  obtain ⟨body, rfl, unrolls⟩ | ⟨test, fallback, tested, otherwise, rfl, _, _, rfl, testUnrolls,
    fallbackUnrolls⟩ := Clause.unrolls_of_emit emits
  · rw [closing, Emitted.bodies_concat]
    cases unrolls with
    | expression result =>
        rw [result.bodies, Clause.parts, Clause.operands, List.flatMap_singleton]
    | define value _ target | assign value target | update value target =>
        rw [Emitted.bodies_concat, Emitted.bodies_append, value.bodies, target.bodies,
          List.append_nil, Clause.parts, Clause.operands, List.flatMap_singleton]
    | updateWith argument function target =>
        rw [Emitted.bodies_concat, Emitted.bodies_append, Emitted.bodies_append, argument.bodies,
          function.bodies, target.bodies, List.append_nil, Clause.parts, Clause.operands,
          Expression.bodies_pair]
  · rw [Emitted.bodies_concat, Emitted.bodies_append, Emitted.bodies_concat, testUnrolls.bodies,
      fallbackUnrolls.bodies, Clause.parts, Clause.operands, Expression.bodies_pair]

theorem Statement.bodies_of_emitAll {statements : List Statement} {located : List Located}
    {whole : Scope}
    (emits : Statement.emitAll vocabulary outer scope statements = .ok (located, whole)) :
    mentioned located =
      statements.flatMap fun statement => Expression.bodies statement.clause.parts := by
  induction statements generalizing scope located with
  | nil =>
      cases emits
      rfl
  | cons statement rest inductionHypothesis =>
      obtain ⟨emitted, extended, others, clauseEmits, restEmit, rfl⟩ :=
        Statement.emitAll_cons_eq_ok emits
      have first := Clause.bodies_of_emit clauseEmits
      rw [mentioned_append, inductionHypothesis restEmit, mentioned_map, List.flatMap_cons, ← first]
      rfl

theorem Block.bodies_of_emit {block : Block} {located : List Located} {whole : Scope}
    (emits : block.emit vocabulary outer scope = .ok (located, whole)) :
    mentioned located = block.bodies := by
  obtain ⟨statements⟩ := block
  cases statements with
  | nil =>
      cases emits
      rfl
  | cons statement rest => exact Statement.bodies_of_emitAll emits

end Statements

/-! ### Laying down -/

/-- The run fails for an operand that does not fit in a word, though it is below the limit. -/
def Outcome.Overflows {α : Type} (limit : Nat) (outcome : Outcome α) : Prop :=
  ∃ failure operand, outcome = .error failure ∧ failure.fault = .operandTooLarge operand ∧
    operandLimit ≤ operand ∧ operand < limit

section Laying

variable {limit : Nat}

theorem Outcome.Overflows.bind {α β : Type} {outcome : Outcome α}
    (overflows : outcome.Overflows limit) (next : α → Outcome β) :
    (outcome >>= next).Overflows limit := by
  obtain ⟨failure, operand, rfl, isFault, large, small⟩ := overflows
  exact ⟨failure, operand, rfl, isFault, large, small⟩

theorem Outcome.Overflows.map {α β : Type} {outcome : Outcome α}
    (overflows : outcome.Overflows limit) (change : α → β) :
    Outcome.Overflows limit (outcome.map change) := by
  obtain ⟨failure, operand, rfl, isFault, large, small⟩ := overflows
  exact ⟨failure, operand, rfl, isFault, large, small⟩

theorem Outcome.Overflows.within {α : Type} {outcome : Outcome α}
    (overflows : outcome.Overflows limit) (span : Option Span) :
    (Outcome.within span outcome).Overflows limit := by
  obtain ⟨failure, operand, rfl, isFault, large, small⟩ := overflows
  exact ⟨failure.within span, operand, rfl, (fault_within span failure).trans isFault, large, small⟩

theorem Assembly.lay_room (assembly : Assembly) (span : Option Span) {instruction : Instruction}
    (small : ∀ operand ∈ instruction.operands, operand < limit) :
    (assembly.lay span instruction).Overflows limit ∨
      ∃ after, assembly.lay span instruction = .ok after ∧
        after.constants = assembly.constants ∧ after.numbered = assembly.numbered := by
  rw [lay, checkOperands]
  cases found : instruction.operands.find? (operandLimit ≤ ·) with
  | none => exact .inr ⟨_, rfl, rfl, rfl⟩
  | some operand =>
      have large : operandLimit ≤ operand := by simpa using List.find?_some found
      have below := small operand (List.mem_of_find?_eq_some found)
      exact .inl ⟨_, operand, rfl, rfl, large, below⟩

/-- The size of blocks together. -/
def Block.sizeOfAll (bodies : List Block) : Nat :=
  (bodies.map Block.size).sum

theorem Block.sizeOfAll_append (first second : List Block) :
    sizeOfAll (first ++ second) = sizeOfAll first + sizeOfAll second := by
  rw [sizeOfAll, List.map_append, List.sum_append]
  rfl

/-- The constants and the numbers given away leave room for what is still to come. -/
structure Assembly.Room (limit size : Nat) (assembly : Assembly) : Prop where
  constants : assembly.constants.size + size ≤ limit
  numbered : assembly.numbered + size ≤ limit

/-- Laying an instruction leaves the room as it was, and the bodies that are mentioned. -/
theorem Assembly.Room.laid {assembly : Assembly} {size : Nat} (room : assembly.Room limit size)
    (bodies : List Block) (span : Option Span) {instruction : Instruction}
    (small : ∀ operand ∈ instruction.operands, operand < limit) :
    (Outcome.within span ((assembly.lay span instruction).map (·, bodies))).Overflows limit ∨
      ∃ after, Outcome.within span ((assembly.lay span instruction).map (·, bodies)) =
        .ok (after, bodies) ∧ after.Room limit size := by
  obtain overflows | ⟨after, done, constants, numbered⟩ := assembly.lay_room span small
  · exact .inl ((overflows.map _).within span)
  · refine .inr ⟨after, by rw [done]; rfl, ?_, ?_⟩
    · rw [constants]
      exact room.constants
    · rw [numbered]
      exact room.numbered

/-- One thing that was emitted. Of its weight, the bodies it mentions remain to be done. -/
theorem Assembly.layEmitted_room {assembly : Assembly} (bodies : List Block) {located : Located}
    {size : Nat} (room : assembly.Room limit (located.1.weight + size))
    (operands : ∀ instruction, located.1 = .instruction instruction →
      ∀ operand ∈ instruction.operands, operand < limit) :
    (layEmitted (assembly, bodies) located).Overflows limit ∨ ∃ after,
      layEmitted (assembly, bodies) located = .ok (after, bodies ++ mentioned [located]) ∧
      after.Room limit (Block.sizeOfAll (mentioned [located]) + size) := by
  obtain ⟨emitted, span⟩ := located
  obtain ⟨constants, numbered⟩ := room
  cases emitted with
  | instruction instruction =>
      have nothing : bodies ++ mentioned [(.instruction instruction, span)] = bodies :=
        List.append_nil bodies
      rw [nothing]
      exact Room.laid ⟨constants, numbered⟩ bodies span (operands instruction rfl)
  | literal value =>
      have nothing : bodies ++ mentioned [(.literal value, span)] = bodies :=
        List.append_nil bodies
      have none : Block.sizeOfAll (mentioned [(.literal value, span)]) = 0 := rfl
      rw [nothing, none]
      dsimp only [Emitted.weight] at constants numbered
      have pushed : (assembly.constants.push value).size = assembly.constants.size + 1 :=
        Array.size_push value
      have room : Room limit (0 + size) { assembly with
          constants := assembly.constants.push value } :=
        ⟨by dsimp only; omega, by dsimp only; omega⟩
      exact room.laid bodies span (by simp [Instruction.operands]; omega)
  | closure body =>
      have one : Block.sizeOfAll (mentioned [(.closure body, span)]) = body.size := rfl
      rw [one]
      dsimp only [Emitted.weight] at constants numbered
      have room : Room limit (body.size + size) { assembly with
          numbered := assembly.numbered + 1 } :=
        ⟨by dsimp only; omega, by dsimp only; omega⟩
      exact room.laid (bodies ++ [body]) span (by simp [Instruction.operands]; omega)

theorem Assembly.Room.mono {size other : Nat} {assembly : Assembly}
    (room : assembly.Room limit size) (less : other ≤ size) : assembly.Room limit other :=
  ⟨Nat.le_trans (Nat.add_le_add_left less _) room.constants,
    Nat.le_trans (Nat.add_le_add_left less _) room.numbered⟩

theorem Assembly.layAll_room {located : List Located} {assembly : Assembly}
    (bodies : List Block) {size rest : Nat}
    (emitted : Emitted.Room limit size (located.map Prod.fst))
    (room : assembly.Room limit (size + rest)) :
    (located.foldlM layEmitted (assembly, bodies)).Overflows limit ∨ ∃ after,
      located.foldlM layEmitted (assembly, bodies) = .ok (after, bodies ++ mentioned located) ∧
      after.Room limit (Block.sizeOfAll (mentioned located) + rest) := by
  induction located generalizing assembly bodies size rest with
  | nil =>
      refine .inr ⟨assembly, by rw [mentioned, List.filterMap_nil, List.append_nil]; rfl, ?_⟩
      exact room.mono (Nat.add_le_add_right (Nat.zero_le size) rest)
  | cons first others inductionHypothesis =>
      obtain ⟨weight, operands⟩ := emitted
      rw [List.map_cons] at operands
      rw [List.map_cons, List.map_cons, List.sum_cons] at weight
      have remaining : Emitted.Room limit ((others.map Prod.fst).map Emitted.weight).sum
          (others.map Prod.fst) :=
        ⟨Nat.le_refl _, fun instruction member => operands instruction (.tail _ member)⟩
      have here : assembly.Room limit
          (first.1.weight + (((others.map Prod.fst).map Emitted.weight).sum + rest)) :=
        room.mono (by omega)
      rw [List.foldlM_cons]
      obtain overflows | ⟨after, done, left⟩ := layEmitted_room bodies here
        fun instruction isFirst => operands instruction (by rw [← isFirst]; exact .head _)
      · exact .inl (overflows.bind _)
      · have next := inductionHypothesis (bodies ++ mentioned [first]) remaining
          (left.mono (Nat.le_of_eq (Nat.add_left_comm _ _ rest)))
        have split : mentioned (first :: others) = mentioned [first] ++ mentioned others :=
          mentioned_append [first] others
        rw [done, split, ← List.append_assoc]
        obtain overflows | ⟨final, ended, final_room⟩ := next
        · exact .inl overflows
        · refine .inr ⟨final, ended, ?_⟩
          rw [Block.sizeOfAll_append]
          exact final_room.mono (by omega)

end Laying

/-! ### Tasks -/

namespace Task

/-- The tasks that come of a task: those of the function literals in its block. -/
def literals (task : Task) : List Task :=
  task.body.bodies.map fun inner => ⟨inner, (task.scope ++ task.body.declares) :: task.outer, []⟩

theorem literals_bodies (task : Task) : task.literals.map body = task.body.bodies :=
  List.map_map.trans (List.map_id _)

/-- Why a task is refused: for its own block, or for a function literal in it. -/
inductive Refuses (vocabulary : Vocabulary) : Task → Fault → Prop where
  | here {task : Task} {fault : Fault} :
      Statement.Refuse vocabulary task.outer task.scope task.body.statements fault →
      Refuses vocabulary task fault
  | literal {task inner : Task} {fault : Fault} : inner ∈ task.literals →
      Refuses vocabulary inner fault → Refuses vocabulary task fault

/-- The limit leaves room for the names and for the depth of a task and of all tasks that
come of it. -/
structure Room (limit : Nat) (task : Task) : Prop where
  depth : task.outer.length + 1 + task.body.size ≤ limit
  slots : ∀ scope ∈ task.scope :: task.outer, scope.frameSize + task.body.size ≤ limit

end Task

section Tasks

variable {limit : Nat} {vocabulary : Vocabulary}

/-- A body that is mentioned is smaller than the room for the mention. -/
theorem Emitted.Room.size_lt {size : Nat} {emitted : List Emitted} (room : Room limit size emitted)
    {body : Block} (member : body ∈ bodies emitted) : body.size < size := by
  obtain ⟨closure, isEmitted, isBody⟩ := List.mem_filterMap.1 member
  obtain ⟨before, after, rfl⟩ := List.append_of_mem isEmitted
  have weight := room.weight
  rw [List.map_append, List.map_cons, List.sum_append, List.sum_cons] at weight
  cases closure with
  | closure inner =>
      cases isBody
      rw [Emitted.weight] at weight
      omega
  | instruction _ | literal _ => cases isBody

/-- A literal has room where the task has. -/
theorem Task.Room.literal {task : Task} (room : task.Room limit) {inner : Block} {size : Nat}
    (fits : size + task.body.declares.length ≤ task.body.size) (smaller : inner.size < size) :
    Task.Room limit ⟨inner, (task.scope ++ task.body.declares) :: task.outer, []⟩ := by
  obtain ⟨depth, slots⟩ := room
  have frame := Scope.frameSize_append task.scope task.body.declares
  have own := slots task.scope (.head _)
  have empty : Scope.frameSize [] ≤ task.scope.frameSize :=
    Nat.add_le_add_right (Nat.zero_le _) reservedSlots
  refine ⟨?_, ?_⟩
  · dsimp only [List.length_cons]
    omega
  · dsimp only
    intro scope member
    rcases List.mem_cons.1 member with rfl | member
    · omega
    · rcases List.mem_cons.1 member with rfl | member
      · omega
      · have around := slots scope (.tail _ member)
        omega

/-- One task. What it leaves to do has room where the task had. -/
theorem Assembly.perform_room {assembly : Assembly} {task : Task} {rest : Nat}
    (fits : 8 ≤ limit) (known : vocabulary.size ≤ limit) (taskRoom : task.Room limit)
    (room : assembly.Room limit (task.body.size + rest)) {located : List Located} {whole : Scope}
    (emits : task.body.emit vocabulary task.outer task.scope = .ok (located, whole)) :
    (assembly.perform vocabulary task).Overflows limit ∨ ∃ after,
      assembly.perform vocabulary task = .ok (after, task.literals, whole) ∧
      (∀ next ∈ task.literals, next.Room limit) ∧
      after.Room limit (Block.sizeOfAll task.body.bodies + rest) := by
  have around : Surrounding.Room limit ⟨vocabulary, task.scope :: task.outer⟩ := by
    refine ⟨fits, known, ?_, fun scope member => ?_⟩
    · exact Nat.le_trans (Nat.le_add_right _ _) taskRoom.depth
    · exact Nat.le_trans (Nat.le_add_right _ _) (taskRoom.slots scope member)
  obtain ⟨size, emitted, inside⟩ :=
    Block.room_of_emit around (taskRoom.slots task.scope (.head _)) emits
  have bodies := Block.bodies_of_emit emits
  cases Block.scope_of_emit emits
  have laid := layAll_room [] emitted
    (room.mono (Nat.add_le_add_right (Nat.le_trans (Nat.le_add_right _ _) inside) rest))
  rw [List.nil_append, bodies] at laid
  rw [perform, emits]
  obtain overflows | ⟨after, done, left⟩ := laid
  · exact .inl (overflows.bind _)
  · refine .inr ⟨{ after with blocks := after.blocks ++ [⟨assembly.code.size,
      Scope.frameSize (task.scope ++ task.body.declares)⟩] }, ?_, ?_, left.constants, left.numbered⟩
    · change (located.foldlM layEmitted (assembly, []) >>= _) = _
      rw [done]
      rfl
    · intro next member
      obtain ⟨inner, isInner, rfl⟩ := List.mem_map.1 member
      have mentions : Emitted.bodies (located.map Prod.fst) = task.body.bodies :=
        List.filterMap_map.trans bodies
      exact taskRoom.literal inside (emitted.size_lt (mentions ▸ isInner))

/-- One task fails for a fault of its own block, or hands on the faults of its literals. -/
theorem Assembly.perform_reports {assembly : Assembly} {task : Task} {rest : Nat}
    (fits : 8 ≤ limit) (known : vocabulary.size ≤ limit) (taskRoom : task.Room limit)
    (room : assembly.Room limit (task.body.size + rest)) :
    (assembly.perform vocabulary task).Overflows limit ∨
      (∃ failure, assembly.perform vocabulary task = .error failure ∧
        task.Refuses vocabulary failure.fault) ∨
      ∃ after whole, assembly.perform vocabulary task = .ok (after, task.literals, whole) ∧
        (∀ next ∈ task.literals, next.Room limit) ∧
        after.Room limit (Block.sizeOfAll task.body.bodies + rest) ∧
        literalsOf task.body.bodies = task.body.literals ∧
        ∀ fault, task.Refuses vocabulary fault ↔
          ∃ next ∈ task.literals, next.Refuses vocabulary fault := by
  have reports : (task.body.emit vocabulary task.outer task.scope).Reports
      (Statement.Refuse vocabulary task.outer task.scope task.body.statements) :=
    task.body.emit_reports
  cases emits : task.body.emit vocabulary task.outer task.scope with
  | error failure =>
      rw [emits] at reports
      refine .inr (.inl ⟨failure, ?_, .here reports⟩)
      rw [perform, emits]
      rfl
  | ok emitted =>
      obtain ⟨located, whole⟩ := emitted
      rw [emits] at reports
      obtain overflows | ⟨after, done, nexts, left⟩ :=
        perform_room fits known taskRoom room emits
      · exact .inl overflows
      · have counted : literalsOf task.body.bodies = task.body.literals :=
          Block.bodies_of_emit emits ▸ Block.literals_of_emit emits
        refine .inr (.inr ⟨after, whole, done, nexts, left, counted, fun fault => ⟨?_, ?_⟩⟩)
        · rintro (here | ⟨member, inner⟩)
          · exact absurd here (reports fault)
          · exact ⟨_, member, inner⟩
        · rintro ⟨next, member, inner⟩
          exact .literal member inner

/-- A run of the queue reports the faults of the tasks that wait. -/
theorem Assembly.performAll_reports {assembly : Assembly} {waiting : List Task} {budget : Nat}
    (fits : 8 ≤ limit) (known : vocabulary.size ≤ limit)
    (enough : literalsOf (waiting.map Task.body) ≤ budget)
    (rooms : ∀ task ∈ waiting, task.Room limit)
    (room : assembly.Room limit (Block.sizeOfAll (waiting.map Task.body))) :
    (performAll vocabulary budget assembly waiting).Overflows limit ∨
      (performAll vocabulary budget assembly waiting).Reports fun fault =>
        ∃ task ∈ waiting, task.Refuses vocabulary fault := by
  induction budget generalizing assembly waiting with
  | zero =>
      cases waiting with
      | nil => exact .inr fun fault ⟨_, member, _⟩ => nomatch member
      | cons task waiting => simp [literalsOf] at enough
  | succ budget inductionHypothesis =>
      cases waiting with
      | nil => exact .inr fun fault ⟨_, member, _⟩ => nomatch member
      | cons task waiting =>
          obtain ⟨taskRoom, rooms⟩ := List.forall_mem_cons.1 rooms
          obtain overflows | ⟨failure, failed, refuses⟩ |
              ⟨after, whole, done, nexts, left, counted, faults⟩ :=
            perform_reports fits known taskRoom room
          · exact .inl (overflows.bind _)
          · refine .inr ?_
            rw [performAll, failed]
            exact ⟨task, .head _, refuses⟩
          · have fewer : literalsOf ((waiting ++ task.literals).map Task.body) ≤ budget := by
              rw [List.map_append, literalsOf_append, task.literals_bodies, counted]
              rw [List.map_cons, literalsOf, List.map_cons, List.sum_cons] at enough
              rw [literalsOf]
              omega
            have remaining : after.Room limit
                (Block.sizeOfAll ((waiting ++ task.literals).map Task.body)) := by
              rw [List.map_append, Block.sizeOfAll_append, task.literals_bodies, Nat.add_comm]
              exact left
            have later := inductionHypothesis fewer
              (List.forall_mem_append.2 ⟨rooms, nexts⟩) remaining
            rw [performAll, done]
            refine later.imp_right fun reports => reports.imp fun fault => ?_
            simp only [List.mem_append, List.mem_cons, or_and_right, exists_or, exists_eq_left,
              faults fault]
            exact or_comm

end Tasks

/-! ### Programs -/

/-- No operand of a compiled program reaches this number: it counts the words of the
vocabulary, the names from outside and the parts of the tree. -/
def Block.operandBound (block : Block) (vocabulary : Vocabulary) (externals : List String) : Nat :=
  vocabulary.size + externals.length + block.size + 8

/-- A whole program, once the names from outside are in its scope. -/
theorem Assembly.start_reports (block : Block) (vocabulary : Vocabulary)
    (externals : List String) :
    (performAll vocabulary (block.literals + 1) (start vocabulary)
        [⟨block, [], externals⟩]).Overflows (block.operandBound vocabulary externals) ∨
      (performAll vocabulary (block.literals + 1) (start vocabulary)
        [⟨block, [], externals⟩]).Reports (Task.Refuses vocabulary ⟨block, [], externals⟩) := by
  have enough : literalsOf [block] ≤ block.literals + 1 := Nat.le_refl _
  have taskRoom : Task.Room (block.operandBound vocabulary externals) ⟨block, [], externals⟩ := by
    refine ⟨?_, fun scope member => ?_⟩
    · rw [Block.operandBound]
      dsimp only [List.length_nil]
      omega
    · obtain rfl := List.mem_singleton.1 member
      rw [Block.operandBound, Scope.frameSize, reservedSlots]
      dsimp only
      omega
  have room : (start vocabulary).Room (block.operandBound vocabulary externals)
      (Block.sizeOfAll [block]) := by
    have constants : (start vocabulary).constants.size = vocabulary.size := Array.size_map
    have one : Block.sizeOfAll [block] = block.size := Nat.add_zero _
    refine ⟨?_, ?_⟩
    · rw [constants, one, Block.operandBound]
      omega
    · have numbered : (start vocabulary).numbered = 1 := rfl
      rw [numbered, one, Block.operandBound]
      omega
  have known : vocabulary.size ≤ block.operandBound vocabulary externals := by
    rw [Block.operandBound]
    omega
  have fits : 8 ≤ block.operandBound vocabulary externals := Nat.le_add_left ..
  have reports := performAll_reports fits known enough (List.forall_mem_singleton.2 taskRoom) room
  refine reports.imp_right fun reports => reports.imp fun fault => ?_
  simp only [List.mem_singleton, exists_eq_left]

theorem Outcome.Reports.finish {α β γ : Type} {faults : Fault → Prop} {outcome : Outcome α}
    {next : α → Outcome β} (reports : (outcome >>= next).Reports faults) (change : α → β → γ) :
    (do
      let first ← outcome
      let second ← next first
      return change first second).Reports faults := by
  cases outcome with
  | error failure => exact reports
  | ok first => exact reports.map (change first)

theorem Outcome.Overflows.finish {α β γ : Type} {limit : Nat} {outcome : Outcome α}
    {next : α → Outcome β} (overflows : (outcome >>= next).Overflows limit) (change : α → β → γ) :
    (do
      let first ← outcome
      let second ← next first
      return change first second).Overflows limit := by
  cases outcome with
  | error failure =>
      obtain ⟨_, operand, same, isFault, large, small⟩ := overflows
      cases same
      exact ⟨failure, operand, rfl, isFault, large, small⟩
  | ok first => exact overflows.bind _

/-- Compiling reports names that come from outside twice and the faults of the tree. -/
theorem Block.compile_reports (block : Block) (vocabulary : Vocabulary)
    (externals : List String) :
    (block.compile vocabulary externals).Overflows (block.operandBound vocabulary externals) ∨
      (block.compile vocabulary externals).Reports fun fault =>
        (∃ earlier name later, externals = earlier ++ name :: later ∧ name ∈ earlier ∧
          fault = .alreadyDefined name) ∨
        Task.Refuses vocabulary ⟨block, [], externals⟩ fault := by
  have names : (Scope.declareAll [] externals).Reports fun fault =>
      ∃ earlier name later, externals = earlier ++ name :: later ∧ name ∈ earlier ∧
        fault = .alreadyDefined name := by
    simpa using (Scope.declareAll_reports : (Scope.declareAll [] externals).Reports _)
  cases declared : Scope.declareAll [] externals with
  | error failure =>
      rw [declared] at names
      rw [compile, declared]
      exact .inr (.inl names)
  | ok scope =>
      rw [declared] at names
      obtain rfl : scope = externals := (Scope.declareAll_eq_ok declared).1
      have shape : block.compile vocabulary scope = (do
          let top ← (Assembly.start vocabulary).perform vocabulary ⟨block, [], scope⟩
          let assembly ← Assembly.performAll vocabulary block.literals top.1 top.2.1
          return ⟨assembly.code, assembly.constants, assembly.blocks, assembly.locations,
            scope.length, top.2.2.addresses⟩) := by
        rw [compile, declared]
        rfl
      rw [shape]
      obtain overflows | reports := Assembly.start_reports block vocabulary scope
      · exact .inl (overflows.finish _)
      · have faults := Outcome.Reports.finish reports fun top assembly =>
          (⟨assembly.code, assembly.constants, assembly.blocks, assembly.locations, scope.length,
            top.2.2.addresses⟩ : Program)
        exact .inr (faults.imp fun fault => (or_iff_right (names fault)).symm)

end PointFree
