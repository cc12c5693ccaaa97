import PointFree.Proofs.Conversation
import PointFree.Proofs.Tandem
import PointFree.Proofs.Meaning.Running

/-!
Contract: the bindings of a session.

A line is compiled with the names that are bound as its first top-level names and begins with
their values in its top-level frame. Slots that are set stay set, so what was bound stays bound,
and the names of a scope are distinct. The names and values that are carried on are therefore
always accepted: what fails is a statement of the line.
-/

namespace PointFree

/-! ### The top-level frame -/

theorem Scope.names_addresses (scope : Scope) : scope.addresses.map Prod.fst = scope := by
  rw [addresses, List.map_map]
  exact List.zipIdx_map_fst 0 scope

theorem Scope.mem_addresses {scope : Scope} {name : String} {index : Nat}
    (found : scope[index]? = some name) : (name, index + reservedSlots) ∈ scope.addresses :=
  List.mem_map.2 ⟨(name, index), List.mem_zipIdx_iff_getElem?.2 found, rfl⟩

section Running

variable {machine : Machine} {block : Block} {externals : List String} {program : Program}
variable {vocabulary : Vocabulary} {tasks : List Task} {limit : Nat} {entry : BlockEntry}
variable {whole : Scope} {placed : List Marked} {steps : List Step} {globals : Array Value}
variable {memory after : Store} {value : Value} {frame : Nat}

/-- The values that a program is given stand in its frame from the start. -/
theorem Machine.IsMadeOf.value?_started
    (made : machine.IsMadeOf block externals program vocabulary tasks limit entry whole placed
      steps) (given : globals.size = externals.length) {index : Nat}
    (inside : index < globals.size) (memory : Store) :
    (machine.started globals memory).value? memory.heap.frames.size (index + reservedSlots) =
      some globals[index] := by
  have declared : whole = externals ++ block.declares := made.holds.lowers.scope_eq
  have slots : (topSlots machine.top.frameSize globals)[index + reservedSlots]? =
      some (some globals[index]) := by
    rw [made.top, declared, Scope.frameSize, List.length_append, ← given, ← Array.getElem?_toList,
      topSlots_toList]
    simp only [reservedSlots, List.getElem?_cons_succ]
    rw [List.getElem?_append_left (by simpa using inside), List.getElem?_map,
      Array.getElem?_toList, Array.getElem?_eq_getElem inside, Option.map_some]
  rw [Store.value?, Heap.slot?, started, Array.getElem?_push_size, Option.bind_some, slots,
    Option.join_some]

/-- What a program is given is set in its frame when it has ended. -/
theorem Machine.IsMadeOf.isSet_after_run
    (made : machine.IsMadeOf block externals program vocabulary tasks limit entry whole placed
      steps) (given : globals.size = externals.length)
    (ended : (machine.run globals).perform memory = (.ok (value, frame), after)) {name : String}
    (member : name ∈ externals) :
    ∃ slot found, (name, slot) ∈ program.globals ∧ after.value? frame slot = some found := by
  obtain ⟨index, isName⟩ := List.mem_iff_getElem?.1 member
  have inside : index < globals.size := given ▸ (List.getElem?_eq_some_iff.1 isName).1
  have declared : whole = externals ++ block.declares := made.holds.lowers.scope_eq
  have isGlobal : (name, index + reservedSlots) ∈ program.globals := by
    rw [made.globals, declared]
    refine Scope.mem_addresses ?_
    rw [List.getElem?_append_left (given ▸ inside), isName]
  have grows := machine.top.grows_run memory.heap.programs.size memory.heap.frames.size
    (machine.started globals memory)
  obtain ⟨later, isSet⟩ := grows.slots (made.value?_started given inside memory)
  rw [perform_run (given.trans made.count.symm)] at ended
  obtain ⟨succeeds, rfl⟩ := Prod.mk.inj ended
  obtain ⟨_, _, same⟩ := Outcome.map_eq_ok.1 succeeds
  cases same
  exact ⟨_, later, isGlobal, isSet⟩

end Running

/-! ### Sessions -/

namespace Session

/-- What is true of a session at every moment, and of its memory. -/
structure IsSound (session : Session) (memory : Store) : Prop extends
    session.IsSettled memory where
  distinct : session.names.Nodup

section Sound

variable {session next : Session} {line : String} {memory after : Store} {value : Value}

theorem size_values (session : Session) : session.values.size = session.names.length := by
  rw [values, names, List.size_toArray, List.length_map, List.length_map]

theorem names_sublist (store : Store) (globals : List (String × Nat)) (frame : Nat) :
    (store.bindings globals frame).map Prod.fst |>.Sublist (globals.map Prod.fst) := by
  induction globals with
  | nil => exact .slnil
  | cons entry rest inductionHypothesis =>
      rw [Store.bindings, List.filterMap_cons]
      cases store.value? frame entry.2 with
      | none => exact .cons _ inductionHypothesis
      | some found => exact .cons_cons _ inductionHypothesis

/-- A run of a line that has ended well, and what it leaves. -/
structure Leaves (session : Session) (line : String) (memory : Store) (value : Value)
    (next : Session) (after : Store) (block : Block) (program : Program) (frame : Nat) : Prop where
  reads : Block.parse line = .ok block
  compiles : block.compile session.vocabulary session.names = .ok program
  runs : ∃ machine, Machine.load program defaultCallLimit = .ok machine ∧
    (machine.run session.values).perform memory = (.ok (value, frame), after)
  keeps : next = { session with bindings := after.bindings program.globals frame }

theorem exists_leaves
    (succeeds : (session.advance line).perform memory = (.ok (value, next), after)) :
    ∃ block program frame, session.Leaves line memory value next after block program frame := by
  obtain ⟨_, _, ended⟩ | ⟨_, _, _, _, ended⟩ |
    ⟨block, program, machine, reads, compiles, loaded, ended⟩ := advance_cases session line memory
  · cases ended.symm.trans succeeds
  · cases ended.symm.trans succeeds
  · rw [ended, conclude] at succeeds
    rcases runs : (machine.run session.values).perform memory with ⟨outcome, stored⟩
    rw [runs] at succeeds
    obtain ⟨succeeded, rfl⟩ := Prod.mk.inj succeeds
    obtain ⟨⟨found, frame⟩, rfl, same⟩ := Outcome.map_eq_ok.1 succeeded
    cases same
    exact ⟨block, program, frame, reads, compiles, ⟨machine, loaded, runs⟩, rfl⟩

section Leaves

variable {block : Block} {program : Program} {frame : Nat}
variable (leaves : session.Leaves line memory value next after block program frame)

include leaves

/-- The top level of a line has the names that are bound, and then those it declares. -/
theorem Leaves.globals :
    program.globals.map Prod.fst = session.names ++ block.declares ∧
      (session.names ++ block.declares).Nodup := by
  obtain ⟨_, _, _, whole, _, _, _, made⟩ := Block.compile_machine leaves.compiles defaultCallLimit
  have declared : whole = session.names ++ block.declares := made.holds.lowers.scope_eq
  have distinct : whole.Nodup := made.holds.lowers.nodup made.distinct
  rw [made.globals, Scope.names_addresses, ← declared]
  exact ⟨rfl, distinct⟩

theorem Leaves.nodup : next.names.Nodup := by
  obtain ⟨names, distinct⟩ := leaves.globals
  rw [leaves.keeps]
  exact (names ▸ distinct : (program.globals.map Prod.fst).Nodup).sublist (names_sublist ..)

theorem Leaves.names_subset : session.names ⊆ next.names := by
  intro name member
  obtain ⟨machine, loaded, runs⟩ := leaves.runs
  obtain ⟨machine', _, _, _, _, _, loaded', made⟩ :=
    Block.compile_machine leaves.compiles defaultCallLimit
  cases loaded.symm.trans loaded'
  obtain ⟨slot, found, isGlobal, isSet⟩ := made.isSet_after_run session.size_values runs member
  rw [leaves.keeps]
  exact List.mem_map.2 ⟨(name, found), mem_bindings.2 ⟨slot, isGlobal, isSet⟩, rfl⟩

end Leaves

/-- A line that fails does so at one of its characters or statements, unless it is too large. -/
theorem IsSound.advance_error (sound : session.IsSound memory) {failure : Failure}
    (fails : (session.advance line).perform memory = (.error failure, after)) :
    failure.span ≠ none ∨ failure.IsOverflow none := by
  obtain ⟨reason, reads, ended⟩ | ⟨block, reason, reads, refuses, ended⟩ |
    ⟨block, program, machine, reads, compiles, loaded, ended⟩ := advance_cases session line memory
  · cases ended.symm.trans fails
    have stops := Block.parse_fails line
    rw [reads] at stops
    obtain ⟨_, _, _, _, _, placed, _⟩ := stops
    exact .inl (by simp [placed])
  · cases ended.symm.trans fails
    have refused : (block.compile session.vocabulary session.names).Fails _ :=
      block.compile_fails sound.distinct
    rw [refuses] at refused
    refine refused.imp_left ?_
    rintro ⟨around, body, nests, statement, member, place⟩
    obtain ⟨_, _, _, _, placed, _⟩ := Block.span_of_parse reads nests member
    simp [place, placed]
  · obtain ⟨machine', _, _, _, _, _, loaded', made⟩ :=
      Block.compile_machine compiles defaultCallLimit
    cases loaded.symm.trans loaded'
    have spanned : ∀ statement ∈ block.statements, statement.span ≠ none := by
      intro statement member unplaced
      obtain ⟨_, _, _, _, placed, _⟩ := Block.span_of_parse reads .whole member
      cases unplaced.symm.trans placed
    have placed := Machine.run_fails_placed made session.size_values spanned memory
    rw [ended, conclude] at fails
    generalize (machine.run session.values).perform memory = run at fails placed
    obtain ⟨outcome, stored⟩ := run
    obtain ⟨failed, _⟩ := Prod.mk.inj fails
    cases outcome with
    | ok => cases failed
    | error reason =>
        cases failed
        exact .inl placed

/-- The session after a line that is evaluated is the one before, if the line fails. -/
theorem IsSettled.respond_cases (settled : session.IsSettled memory) (input : String) :
    (∃ reply, session.respond input memory = (reply, memory) ∧
        ¬IsEvaluated (Text.trim input) ∧ reply.session.bindings = session.bindings ∧
        reply.session.vocabulary = session.vocabulary) ∨
      (∃ failure shown after, IsEvaluated (Text.trim input) ∧
        (session.advance (Text.trim input)).perform memory = (.error failure, after) ∧
        session.respond input memory =
          (session.reply (shown ++ failure.render (Text.trim input) ++ "\n"), after)) ∨
      ∃ value next shown after, IsEvaluated (Text.trim input) ∧
        (session.advance (Text.trim input)).perform memory = (.ok (value, next), after) ∧
        session.respond input memory = (next.reply (shown ++ "\n"), after) := by
  by_cases evaluated : IsEvaluated (Text.trim input)
  · rcases ended : (session.advance (Text.trim input)).perform memory with
      ⟨failure | ⟨value, next⟩, after⟩
    · obtain ⟨shown, _, responds⟩ := respond_of_error settled evaluated ended
      exact .inr (.inl ⟨failure, shown, after, evaluated, rfl, responds⟩)
    · obtain ⟨shown, text, _, _, responds⟩ := respond_of_ok settled evaluated ended
      exact .inr (.inr ⟨value, next, shown ++ text, after, evaluated, rfl, responds⟩)
  · obtain ⟨reply, responds, bindings, vocabulary⟩ := respond_of_aside settled evaluated
    exact .inl ⟨reply, responds, evaluated, bindings, vocabulary⟩

/-- One line keeps a session sound. -/
theorem IsSound.respond (sound : session.IsSound memory) (input : String) :
    (session.respond input memory).1.session.IsSound (session.respond input memory).2 := by
  obtain ⟨reply, responds, _, bindings, vocabulary⟩ | ⟨failure, _, _, _, fails, responds⟩ |
    ⟨value, next, _, _, _, succeeds, responds⟩ := sound.toIsSettled.respond_cases input
  · rw [responds]
    refine ⟨⟨sound.memory, vocabulary ▸ sound.vocabulary, bindings ▸ sound.bindings⟩, ?_⟩
    rw [names, bindings]
    exact sound.distinct
  · rw [responds]
    exact ⟨sound.toIsSettled.advance_error fails, sound.distinct⟩
  · rw [responds]
    obtain ⟨block, program, frame, leaves⟩ := exists_leaves succeeds
    exact ⟨(sound.toIsSettled.advance_ok succeeds).2, leaves.nodup⟩

end Sound

/-! ### Conversations -/

/-- A session that lines have led to, with its memory. -/
inductive Reached : Session → Store → Prop where
  | start : Reached (.start (Vocabulary.standard Store.empty).1) (Vocabulary.standard Store.empty).2
  | line {session : Session} {memory : Store} (input : String) : Reached session memory →
      Reached (session.respond input memory).1.session (session.respond input memory).2

variable {session : Session} {memory : Store}

/-- Every session of a conversation is sound. -/
theorem Reached.isSound (reached : Reached session memory) : session.IsSound memory := by
  induction reached with
  | start =>
      exact ⟨⟨Store.isSettled_start Primitive.all.length 0, Value.isFinished_standardFrom 0, nofun⟩,
        .nil⟩
  | line input _ inductionHypothesis => exact inductionHypothesis.respond input

/-- Whatever has been said, the names that are bound are distinct and as many as their values, and
none of them is lost. After a line that succeeds those names of its top level are bound whose slots
are set, to what the slots hold. A line never fails because of what it is given. -/
theorem Reached.bindings_kept (reached : Reached session memory) (input : String) :
    session.names.Nodup ∧ session.values.size = session.names.length ∧
      Scope.declareAll [] session.names = .ok session.names ∧
      session.names ⊆ (session.respond input memory).1.session.names ∧
      (¬IsEvaluated (Text.trim input) ∧
          (session.respond input memory).1.session.bindings = session.bindings ∨
        (∃ failure shown, IsEvaluated (Text.trim input) ∧
          (session.respond input memory).1 =
            session.reply (shown ++ failure.render (Text.trim input) ++ "\n") ∧
          (session.advance (Text.trim input)).perform memory =
            (.error failure, (session.respond input memory).2) ∧
          (∀ name, failure ≠ .ofFault (.alreadyDefined name)) ∧
          ∀ expected found, failure ≠ .ofFault (.globalCount expected found)) ∨
        ∃ value block program frame, IsEvaluated (Text.trim input) ∧
          session.Leaves (Text.trim input) memory value (session.respond input memory).1.session
            (session.respond input memory).2 block program frame ∧
          program.globals.map Prod.fst = session.names ++ block.declares ∧
          ∀ name found, (name, found) ∈ (session.respond input memory).1.session.bindings ↔
            ∃ slot, (name, slot) ∈ program.globals ∧
              (session.respond input memory).2.value? frame slot = some found) := by
  have sound := reached.isSound
  refine ⟨sound.distinct, session.size_values, Scope.declareAll_of_nodup sound.distinct, ?_⟩
  obtain ⟨reply, responds, aside, bindings, _⟩ | ⟨failure, shown, after, evaluated, fails, responds⟩ |
    ⟨value, next, shown, after, evaluated, succeeds, responds⟩ :=
      sound.toIsSettled.respond_cases input
  · rw [responds]
    refine ⟨?_, .inl ⟨aside, bindings⟩⟩
    rw [names, names, bindings]
    exact List.Subset.refl _
  · rw [responds]
    refine ⟨List.Subset.refl _, .inr (.inl ⟨failure, shown, evaluated, rfl, fails, ?_, ?_⟩)⟩
    · rintro name rfl
      obtain unplaced | ⟨operand, other, _⟩ := sound.advance_error fails
      · exact unplaced rfl
      · cases other
    · rintro expected found rfl
      obtain unplaced | ⟨operand, other, _⟩ := sound.advance_error fails
      · exact unplaced rfl
      · cases other
  · rw [responds]
    obtain ⟨block, program, frame, leaves⟩ := exists_leaves succeeds
    refine ⟨leaves.names_subset, .inr (.inr ⟨value, block, program, frame, evaluated, leaves,
      leaves.globals.1, fun name found => ?_⟩)⟩
    show (name, found) ∈ next.bindings ↔ _
    rw [leaves.keeps]
    exact mem_bindings

/-- A line that defines a name by means of one that is bound. -/
theorem Reached.bindings_kept_definition :
    ∃ session memory value block program frame, Reached session memory ∧ session.names = ["a"] ∧
      (session.respond "c ← a" memory).1.session.names = ["a", "c"] ∧
      session.Leaves (Text.trim "c ← a") memory value (session.respond "c ← a" memory).1.session
        (session.respond "c ← a" memory).2 block program frame ∧
      ∀ name found, (name, found) ∈ (session.respond "c ← a" memory).1.session.bindings ↔
        ∃ slot, (name, slot) ∈ program.globals ∧
          (session.respond "c ← a" memory).2.value? frame slot = some found := by
  have reached := Reached.start.line "a ← 'b'"
  generalize isSession : (Session.respond _ "a ← 'b'" _).1.session = session at reached
  generalize isMemory : (Session.respond _ "a ← 'b'" _).2 = memory at reached
  have computed : session.names = ["a"] ∧
      (session.respond "c ← a" memory).1.session.names = ["a", "c"] := by
    subst isSession isMemory
    decide +kernel
  obtain ⟨before, after⟩ := computed
  obtain ⟨_, _, _, _, ⟨_, same⟩ | ⟨_, _, _, same, _⟩ | ⟨value, block, program, frame, _, leaves, _,
    bindings⟩⟩ := reached.bindings_kept "c ← a"
  · rw [names, same, ← names, before] at after
    cases after
  · rw [same, reply, before] at after
    cases after
  · exact ⟨session, memory, value, block, program, frame, reached, before, after, leaves, bindings⟩

end Session

end PointFree
