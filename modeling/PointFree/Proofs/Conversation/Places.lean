import PointFree.Proofs.Conversation.Splitting

/-!
Contract: where the lines of a conversation fail.

A line that cannot be read or compiled fails at a place of its own. A line that is run may call a
function that an earlier line made, so it fails at a statement of one of the lines so far, which
need not be the one that the failure is shown in. The invariant is that every step that a session
can reach has the place of a statement of a line that was read.
-/

namespace PointFree

open Correspondence Stepping Outcome

/-- The span of a statement in one of the lines. -/
def Session.Places (lines : List String) (span : Option Span) : Prop :=
  ∃ line ∈ lines, ∃ block, Block.parse (Text.trim line) = .ok block ∧ block.Places span

section Runs

variable {places : Option Span → Prop} {memory : Store} {value : Value}

/-- What a set slot holds is known to be placed. -/
theorem Comparison.values_of_value? {frame slot : Nat}
    (memories : (placing places).correspondence.memories () memory memory)
    (isSet : memory.value? frame slot = some value) :
    (placing places).correspondence.Values () value value := by
  have stores : (placing places).Stores ((placing places).correspondence.Values ()) memory memory :=
    memories
  obtain ⟨found, isFrame, isSlot⟩ := Option.bind_eq_some_iff.1 (Option.join_eq_some_iff.1 isSet)
  obtain ⟨frame', _, frames⟩ := exists_of_forall₂ stores.framewise
    (Array.mem_toList_iff.2 (Array.mem_of_getElem? isFrame))
  obtain ⟨content', _, contents⟩ := exists_of_forall₂ frames.slots
    (Array.mem_toList_iff.2 (Array.mem_of_getElem? isSlot))
  cases contents with
  | some values =>
      cases values.eq (placing places).identifies
      exact values

/-- A run among steps with places leaves such steps only, and fails at one of the places. -/
theorem Machine.placed_run {machine : Machine} {globals : Array Value}
    (memories : (Comparison.placing places).correspondence.memories () memory memory)
    (spanned : ∀ routine ∈ machine.top :: machine.others, ∀ step ∈ routine.steps,
      step.span = none ∨ places step.span)
    (known : ∀ routine ∈ machine.top :: machine.others, routine.AllConstants fun value =>
      (Comparison.placing places).correspondence.Values () value value)
    (given : ∀ value ∈ globals, (Comparison.placing places).correspondence.Values () value value) :
    (Comparison.placing places).correspondence.memories ()
        ((machine.run globals).perform memory).2 ((machine.run globals).perform memory).2 ∧
      Outcome.Fails (fun failure => failure.span = none ∨ places failure.span)
        ((machine.run globals).perform memory).1 := by
  have runs : (Comparison.placing places).correspondence.Actions ()
      (Pairs (Comparison.placing places).correspondence.Values
        (Comparison.placing places).correspondence.Same) (machine.run globals)
      (machine.run globals) :=
    Comparison.Actions.run (p := Comparison.placing places) trivial rfl
      (List.forall₂_same.2 fun routine member =>
        ⟨rfl, rfl, known routine member, spanned routine member⟩) given
  obtain ⟨_, _, after, outcomes⟩ :=
    (Actions.perform (Comparison.descends_placing places).enter runs memories).meets
  refine ⟨after, ?_⟩
  generalize ((machine.run globals).perform memory).1 = outcome at outcomes ⊢
  cases outcomes with
  | ok => trivial
  | error failures => exact failures.known

end Runs

namespace Session

/-- Every step that the session can reach has one of the places, or none. -/
structure IsPlaced (places : Option Span → Prop) (session : Session) (memory : Store) : Prop where
  memory : (Comparison.placing places).correspondence.memories () memory memory
  vocabulary : ∀ entry ∈ session.vocabulary.entries,
    (Comparison.placing places).correspondence.Values () entry.2 entry.2
  bindings : ∀ binding ∈ session.bindings,
    (Comparison.placing places).correspondence.Values () binding.2 binding.2

section Lines

variable {places : Option Span → Prop} {session next : Session} {line : String}
variable {memory after : Store} {value : Value} {failure : Failure}

theorem isPlaced_start (places : Option Span → Prop) :
    (start (Vocabulary.standard Store.empty).1).IsPlaced places
      (Vocabulary.standard Store.empty).2 := by
  have memories : (Comparison.placing places).correspondence.memories ()
      (⟨⟨#[], #[]⟩, Primitive.all.length, 0⟩ : Store) ⟨⟨#[], #[]⟩, Primitive.all.length, 0⟩ :=
    Comparison.memories_self rfl nofun nofun
  have primitives : ∀ entry ∈ (Vocabulary.standardFrom 0).entries,
      (Comparison.placing places).correspondence.Values () entry.2 entry.2 := by
    intro entry member
    obtain ⟨word, _, rfl⟩ := List.mem_map.1 (List.mem_toArray.1 member)
    exact .function (.mk rfl (.primitive _))
  exact ⟨memories, primitives, nofun⟩

/-- The run of a line, if its own statements stand at the places. -/
theorem IsPlaced.run (placed : session.IsPlaced places memory) {block : Block} {program : Program}
    {machine : Machine} (stated : ∀ span, block.Places span → places span)
    (compiles : block.compile session.vocabulary session.names = .ok program)
    (loaded : Machine.load program defaultCallLimit = .ok machine) :
    (Comparison.placing places).correspondence.memories ()
        ((machine.run session.values).perform memory).2
        ((machine.run session.values).perform memory).2 ∧
      Fails (fun failure => failure.span = none ∨ places failure.span)
        ((machine.run session.values).perform memory).1 := by
  obtain ⟨machine', _, _, _, _, _, loaded', made⟩ :=
    Block.compile_machine compiles defaultCallLimit
  cases loaded.symm.trans loaded'
  refine Machine.placed_run placed.memory (fun routine member step isStep => ?_)
    (made.loaded.allConstantsWritten
      (Written.values (Comparison.placing places).correspondence ()) placed.vocabulary)
    fun value member => ?_
  · exact (made.loaded.notes (Block.compile_notes compiles) routine member step isStep).imp_right
      (stated _)
  · obtain ⟨binding, isBinding, rfl⟩ := List.mem_map.1 (List.mem_toArray.1 member)
    exact placed.bindings binding isBinding

/-- A line leaves only its own steps besides those that were there. -/
theorem IsPlaced.advance (placed : session.IsPlaced places memory)
    (stated : ∀ block, Block.parse line = .ok block → ∀ span, block.Places span → places span) :
    (∀ failure after, (session.advance line).perform memory = (.error failure, after) →
        session.IsPlaced places after) ∧
      ∀ value next after, (session.advance line).perform memory = (.ok (value, next), after) →
        next.IsPlaced places after := by
  obtain ⟨_, _, ended⟩ | ⟨_, _, _, _, ended⟩ |
    ⟨block, program, machine, reads, compiles, loaded, ended⟩ := advance_cases session line memory
  · rw [ended]
    exact ⟨fun _ _ same => by cases same; exact placed, nofun⟩
  · rw [ended]
    exact ⟨fun _ _ same => by cases same; exact placed, nofun⟩
  · have kept := (placed.run (stated block reads) compiles loaded).1
    rw [ended, conclude]
    generalize (machine.run session.values).perform memory = run at kept
    obtain ⟨outcome, stored⟩ := run
    constructor
    · intro failure after same
      obtain ⟨_, rfl⟩ := Prod.mk.inj same
      exact ⟨kept, placed.vocabulary, placed.bindings⟩
    · intro value next after same
      obtain ⟨succeeded, rfl⟩ := Prod.mk.inj same
      obtain ⟨⟨found, frame⟩, _, isNext⟩ := Outcome.map_eq_ok.1 succeeded
      cases isNext
      refine ⟨kept, placed.vocabulary, fun binding member => ?_⟩
      obtain ⟨slot, _, isSet⟩ := mem_bindings.1 member
      exact Comparison.values_of_value? kept isSet

theorem IsPlaced.respond (placed : session.IsPlaced places memory)
    (settled : session.IsSettled memory) (input : String)
    (stated : ∀ block, Block.parse (Text.trim input) = .ok block →
      ∀ span, block.Places span → places span) :
    (session.respond input memory).1.session.IsPlaced places (session.respond input memory).2 := by
  obtain ⟨reply, responds, _, bindings, vocabulary⟩ | ⟨failure, _, after, _, fails, responds⟩ |
    ⟨value, next, _, after, _, succeeds, responds⟩ := settled.respond_cases input
  · rw [responds]
    exact ⟨placed.memory, vocabulary ▸ placed.vocabulary, bindings ▸ placed.bindings⟩
  · rw [responds]
    exact (placed.advance stated).1 failure after fails
  · rw [responds]
    exact (placed.advance stated).2 value next after succeeds

/-- The lines of a conversation leave a session in which every step is one of theirs. -/
theorem IsPlaced.through (placed : session.IsPlaced places memory)
    (sound : session.IsSound memory) (lines : List String)
    (stated : ∀ span, Session.Places lines span → places span) :
    (session.through lines memory).1.IsPlaced places (session.through lines memory).2 ∧
      (session.through lines memory).1.IsSound (session.through lines memory).2 := by
  induction lines generalizing session memory with
  | nil => exact ⟨placed, sound⟩
  | cons line lines inductionHypothesis =>
      simp only [Session.through]
      refine inductionHypothesis (placed.respond sound.toIsSettled line ?_) (sound.respond line) ?_
      · exact fun block reads span isPlace => stated span ⟨line, .head _, block, reads, isPlace⟩
      · rintro span ⟨other, member, found⟩
        exact stated span ⟨other, .tail _ member, found⟩

/-- A run that has been given what it expects fails somewhere. -/
theorem IsPlaced.run_fails (placed : session.IsPlaced places memory) {block : Block}
    {program : Program} {machine : Machine} (reads : Block.parse line = .ok block)
    (stated : ∀ span, block.Places span → places span)
    (compiles : block.compile session.vocabulary session.names = .ok program)
    (loaded : Machine.load program defaultCallLimit = .ok machine) :
    Fails (fun failure => places failure.span)
      ((machine.run session.values).perform memory).1 := by
  obtain ⟨machine', _, _, _, _, _, loaded', made⟩ :=
    Block.compile_machine compiles defaultCallLimit
  cases loaded.symm.trans loaded'
  have spanned : ∀ statement ∈ block.statements, statement.span ≠ none := by
    intro statement member unplaced
    obtain ⟨_, _, _, _, isPlace, _⟩ := Block.span_of_parse reads .whole member
    cases unplaced.symm.trans isPlace
  have somewhere := Machine.run_fails_placed made session.size_values spanned memory
  have within := (placed.run stated compiles loaded).2
  generalize ((machine.run session.values).perform memory).1 = outcome at somewhere within ⊢
  cases outcome with
  | ok => trivial
  | error failure => exact within.resolve_left somewhere

/-- A line fails when it is read, when it is compiled or when it is run. -/
theorem IsPlaced.advance_fails (placed : session.IsPlaced places memory)
    (sound : session.IsSound memory)
    (stated : ∀ block, Block.parse line = .ok block → ∀ span, block.Places span → places span)
    (fails : (session.advance line).perform memory = (.error failure, after)) :
    Block.parse line = .error failure ∧ failure.StopsIn line.toList ∨
      ∃ block, Block.parse line = .ok block ∧
        (block.compile session.vocabulary session.names = .error failure ∧
            (block.Places failure.span ∨ failure.IsOverflow none) ∨
          (∃ program, block.compile session.vocabulary session.names = .ok program) ∧
            places failure.span) := by
  obtain ⟨reason, reads, ended⟩ | ⟨block, reason, reads, refuses, ended⟩ |
    ⟨block, program, machine, reads, compiles, loaded, ended⟩ := advance_cases session line memory
  · cases ended.symm.trans fails
    have stops := Block.parse_fails line
    rw [reads] at stops
    exact .inl ⟨reads, stops⟩
  · cases ended.symm.trans fails
    have refused : (block.compile session.vocabulary session.names).Fails _ :=
      block.compile_fails sound.distinct
    rw [refuses] at refused
    exact .inr ⟨block, reads, .inl ⟨refuses, refused⟩⟩
  · have within := placed.run_fails reads (stated block reads) compiles loaded
    refine .inr ⟨block, reads, .inr ⟨⟨program, compiles⟩, ?_⟩⟩
    rw [ended, conclude] at fails
    generalize (machine.run session.values).perform memory = run at fails within
    obtain ⟨outcome, stored⟩ := run
    obtain ⟨failed, _⟩ := Prod.mk.inj fails
    cases outcome with
    | ok => cases failed
    | error reason =>
        cases failed
        exact within

/-- A line that fails when it is read stops at one of its characters, and one that is refused does
so at one of its statements, unless it is too large. A failure that arises when a line is run has the
place of a statement of some line so far, and is shown in the line that was run. -/
theorem failure_places (lines : List String) (input : String) {failure : Failure} {after : Store}
    (evaluated : IsEvaluated (Text.trim input)) :
    let conversation := (start (Vocabulary.standard Store.empty).1).through lines
      (Vocabulary.standard Store.empty).2
    (conversation.1.advance (Text.trim input)).perform conversation.2 = (.error failure, after) →
    (∃ shown, conversation.1.respond input conversation.2 =
      (conversation.1.reply (shown ++ failure.render (Text.trim input) ++ "\n"), after)) ∧
    (Block.parse (Text.trim input) = .error failure ∧
        failure.StopsIn (Text.trim input).toList ∨
      ∃ block, Block.parse (Text.trim input) = .ok block ∧
        (block.compile conversation.1.vocabulary conversation.1.names = .error failure ∧
            (block.Places failure.span ∨ failure.IsOverflow none) ∨
          (∃ program, block.compile conversation.1.vocabulary conversation.1.names = .ok program) ∧
            Session.Places (lines ++ [input]) failure.span)) := by
  intro conversation fails
  obtain ⟨placed, sound⟩ :=
    (isPlaced_start (Session.Places (lines ++ [input]))).through Reached.start.isSound lines
      fun span ⟨line, member, found⟩ => ⟨line, List.mem_append_left _ member, found⟩
  obtain ⟨shown, _, responds⟩ := respond_of_error sound.toIsSettled evaluated fails
  refine ⟨⟨shown, responds⟩, placed.advance_fails sound (fun block reads span isPlace => ?_) fails⟩
  exact ⟨input, List.mem_append_right _ (.head _), block, reads, isPlace⟩

-- The statement that fails is in the first line, behind the end of the second.
example :
    let conversation := (start (Vocabulary.standard Store.empty).1).through ["1⋄F←\x7b𝕩+'a'\x7d"]
      (Vocabulary.standard Store.empty).2
    (conversation.1.respond "F'b'" conversation.2).1.text =
      "1:5: Domain error: cannot add character and character\n  | F'b'\n  |     ^\n" := by
  decide +kernel

end Lines

end Session

end PointFree
