import PointFree.Proofs.Compilation.Constants
import PointFree.Proofs.Correspondence.Settled
import PointFree.Proofs.Placing

/-!
Contract: what a session does with a line.

A line that is evaluated is read, compiled, loaded and run, and what is shown of it depends
on nothing else. Nothing is ever pending in a session, so showing a value neither fails nor
changes the memory.
-/

namespace PointFree

namespace Session

/-- The names bound so far. -/
def names (session : Session) : List String :=
  session.bindings.map Prod.fst

/-- Their values, in the same order. -/
def values (session : Session) : Array Value :=
  (session.bindings.map Prod.snd).toArray

/-- What a line evaluates to, and the session after it, whatever is shown. -/
def advance (session : Session) (line : String) : Run (Value × Session) := do
  let block ← Block.parse line
  let program ← block.compile session.vocabulary session.names
  session.runProgram program

/-- The session after a run that has ended. -/
def conclude (session : Session) (program : Program) (ended : Outcome (Value × Nat) × Store) :
    Outcome (Value × Session) × Store :=
  (ended.1.map fun result =>
    (result.1, { session with bindings := ended.2.bindings program.globals result.2 }), ended.2)

/-! ### Evaluating a line -/

section Evaluating

variable {session : Session} {line : String} {memory : Store} {block : Block} {program : Program}
variable {machine : Machine} {failure : Failure}

theorem perform_runProgram (loaded : Machine.load program defaultCallLimit = .ok machine)
    (memory : Store) :
    (session.runProgram program).perform memory =
      session.conclude program ((machine.run session.values).perform memory) := by
  rw [runProgram, loaded, Action.perform_lift]
  rcases ended : (machine.run session.values).perform memory with ⟨failure | result, after⟩
  · exact Action.bind_of_error ended
  · exact Action.bind_of_ok ended

theorem advance_of_unread (fails : Block.parse line = .error failure) (memory : Store) :
    (session.advance line).perform memory = (.error failure, memory) := by
  rw [advance, fails]
  exact Action.bind_of_error rfl

theorem advance_of_refused (reads : Block.parse line = .ok block)
    (refuses : block.compile session.vocabulary session.names = .error failure) (memory : Store) :
    (session.advance line).perform memory = (.error failure, memory) := by
  rw [advance, reads, Action.perform_lift, refuses]
  exact Action.bind_of_error rfl

theorem advance_of_compiled (reads : Block.parse line = .ok block)
    (compiles : block.compile session.vocabulary session.names = .ok program)
    (loaded : Machine.load program defaultCallLimit = .ok machine) (memory : Store) :
    (session.advance line).perform memory =
      session.conclude program ((machine.run session.values).perform memory) := by
  rw [advance, reads, Action.perform_lift, compiles, Action.perform_lift, perform_runProgram loaded]

/-- A line fails before anything is run, or its program is run and decides. -/
theorem advance_cases (session : Session) (line : String) (memory : Store) :
    (∃ failure, Block.parse line = .error failure ∧
        (session.advance line).perform memory = (.error failure, memory)) ∨
      (∃ block failure, Block.parse line = .ok block ∧
        block.compile session.vocabulary session.names = .error failure ∧
        (session.advance line).perform memory = (.error failure, memory)) ∨
      ∃ block program machine, Block.parse line = .ok block ∧
        block.compile session.vocabulary session.names = .ok program ∧
        Machine.load program defaultCallLimit = .ok machine ∧
        (session.advance line).perform memory =
          session.conclude program ((machine.run session.values).perform memory) := by
  cases reads : Block.parse line with
  | error failure => exact .inl ⟨failure, rfl, advance_of_unread reads memory⟩
  | ok block =>
      cases compiles : block.compile session.vocabulary session.names with
      | error failure =>
          exact .inr (.inl ⟨block, failure, rfl, compiles, advance_of_refused reads compiles memory⟩)
      | ok program =>
          obtain ⟨machine, _, _, _, _, _, loaded, _⟩ :=
            Block.compile_machine compiles defaultCallLimit
          exact .inr (.inr ⟨block, program, machine, rfl, compiles, loaded,
            advance_of_compiled reads compiles loaded memory⟩)

end Evaluating

/-! ### What is shown -/

/-- What is shown of a line before its value or its failure. -/
def preface (session : Session) (line : String) : Run String :=
  match Block.parse line with
  | .error _ => return ""
  | .ok block => do
      let tree := if session.showsCode then block.documentText ++ "\n" else ""
      match block.compile session.vocabulary session.names with
      | .error _ => return tree
      | .ok program =>
          let listing ← if session.showsCode then program.listing else pure ""
          return tree ++ listing

/-- A session and its memory in which nothing is pending. -/
structure IsSettled (session : Session) (memory : Store) : Prop where
  memory : memory.IsSettled
  vocabulary : ∀ entry ∈ session.vocabulary.entries, entry.2.IsFinished
  bindings : ∀ binding ∈ session.bindings, binding.2.IsFinished

end Session

theorem Value.IsFinished.text {value : Value} (finished : value.IsFinished) :
    ∃ text, (value.text : Run String) = pure text :=
  Value.IsSettled.text (Correspondence.Values.isSettled id finished).1

/-- Texts that are known at once are put together at once. -/
theorem exists_mapM_pure {α β : Type} {change : α → Run β} {list : List α}
    (changes : ∀ item ∈ list, ∃ result, change item = pure result) :
    ∃ results, list.mapM change = pure results := by
  induction list with
  | nil => exact ⟨[], rfl⟩
  | cons item rest inductionHypothesis =>
      obtain ⟨here, later⟩ := List.forall_mem_cons.1 changes
      obtain ⟨result, first⟩ := here
      obtain ⟨results, others⟩ := inductionHypothesis later
      exact ⟨result :: results, by rw [List.mapM_cons, first, pure_bind, others, pure_bind]⟩

theorem ListingLine.exists_text {constants : Array Value}
    (finished : ∀ value ∈ constants, value.IsFinished) (line : ListingLine) :
    ∃ text, line.text constants = pure text := by
  cases line with
  | heading | unknown => exact ⟨_, rfl⟩
  | instruction position opcode operands =>
      have comments : ∃ comment, constantComment constants opcode operands = pure comment := by
        unfold constantComment
        split
        · split
          · next value found =>
              obtain ⟨text, texts⟩ := (finished value (Array.mem_of_getElem? found)).text
              exact ⟨_, by rw [texts, pure_bind]⟩
          · exact ⟨_, rfl⟩
        · exact ⟨_, rfl⟩
      obtain ⟨comment, same⟩ := comments
      exact ⟨_, by rw [ListingLine.text, same, pure_bind]⟩

theorem Program.exists_listing {program : Program}
    (finished : ∀ value ∈ program.constants, value.IsFinished) :
    ∃ text, program.listing = pure text := by
  have shows : ∀ line ∈ program.listingLines, ∃ text, line.text program.constants = pure text :=
    fun line _ => line.exists_text finished
  obtain ⟨texts, same⟩ := exists_mapM_pure shows
  exact ⟨_, by rw [listing, same, pure_bind]⟩

namespace Session

section Showing

variable {session : Session} {line : String} {memory : Store}

theorem exists_preface (settled : session.IsSettled memory) (line : String) :
    ∃ shown, session.preface line = pure shown := by
  rw [preface]
  split
  · exact ⟨_, rfl⟩
  · dsimp only
    split
    · exact ⟨_, rfl⟩
    · next program compiles =>
        split
        · obtain ⟨listing, same⟩ := Program.exists_listing
            (Block.compile_constants (.of_isData .of_isData) settled.vocabulary compiles)
          exact ⟨_, by rw [same, pure_bind]⟩
        · exact ⟨_, rfl⟩

/-- Showing the names is done at once. -/
theorem exists_environment (settled : session.IsSettled memory) :
    ∃ shown, session.environment = pure shown := by
  rw [environment]
  split
  · exact ⟨_, rfl⟩
  · have shows : ∀ binding ∈ session.bindings, ∃ line, bindingLine binding = pure line := by
      intro binding member
      obtain ⟨text, texts⟩ := (settled.bindings binding member).text
      exact ⟨_, by rw [bindingLine, texts, pure_bind]⟩
    obtain ⟨lines, same⟩ := exists_mapM_pure shows
    exact ⟨_, by rw [same, pure_bind]⟩

end Showing

/-! ### Nothing is pending -/

section Settled

variable {session next : Session} {line : String} {memory after : Store} {value : Value}

theorem mem_bindings {store : Store} {globals : List (String × Nat)} {frame : Nat}
    {binding : String × Value} :
    binding ∈ store.bindings globals frame ↔
      ∃ slot, (binding.1, slot) ∈ globals ∧ store.value? frame slot = some binding.2 := by
  obtain ⟨name, value⟩ := binding
  rw [Store.bindings, List.mem_filterMap]
  constructor
  · rintro ⟨⟨word, slot⟩, member, found⟩
    obtain ⟨_, isSet, same⟩ := Option.map_eq_some_iff.1 found
    cases same
    exact ⟨slot, member, isSet⟩
  · rintro ⟨slot, member, isSet⟩
    exact ⟨(name, slot), member, by rw [isSet, Option.map_some]⟩

theorem isFinished_of_value? (settled : memory.IsSettled) {frame slot : Nat}
    (isSet : memory.value? frame slot = some value) : value.IsFinished := by
  obtain ⟨found, isFrame, isSlot⟩ := Option.bind_eq_some_iff.1 (Option.join_eq_some_iff.1 isSet)
  exact settled.frames found (Array.mem_of_getElem? isFrame) value (Array.mem_of_getElem? isSlot)

/-- What an evaluation leaves, whether it succeeds or fails. -/
theorem IsSettled.run (settled : session.IsSettled memory) {block : Block} {program : Program}
    {machine : Machine} (compiles : block.compile session.vocabulary session.names = .ok program)
    (loaded : Machine.load program defaultCallLimit = .ok machine) :
    Store.IsSettled ((machine.run session.values).perform memory).2 ∧
      ∀ value frame, ((machine.run session.values).perform memory).1 = .ok (value, frame) →
        value.IsFinished := by
  obtain ⟨machine', _, _, _, _, _, loaded', made⟩ :=
    Block.compile_machine compiles defaultCallLimit
  cases loaded.symm.trans loaded'
  refine Machine.finished_run settled.memory
    (made.loaded.allConstants Value.IsFinished.of_isData settled.vocabulary) ?_
  intro value member
  obtain ⟨binding, isBinding, rfl⟩ := List.mem_map.1 (List.mem_toArray.1 member)
  exact settled.bindings binding isBinding

theorem IsSettled.advance_error (settled : session.IsSettled memory) {failure : Failure}
    (fails : (session.advance line).perform memory = (.error failure, after)) :
    session.IsSettled after := by
  obtain ⟨_, _, ended⟩ | ⟨_, _, _, _, ended⟩ |
    ⟨block, program, machine, _, compiles, loaded, ended⟩ := advance_cases session line memory
  · cases ended.symm.trans fails
    exact settled
  · cases ended.symm.trans fails
    exact settled
  · obtain ⟨kept, _⟩ := settled.run compiles loaded
    have leaves : ((machine.run session.values).perform memory).2 = after :=
      congrArg Prod.snd (ended.symm.trans fails)
    exact ⟨leaves ▸ kept, settled.vocabulary, settled.bindings⟩

theorem IsSettled.advance_ok (settled : session.IsSettled memory)
    (succeeds : (session.advance line).perform memory = (.ok (value, next), after)) :
    value.IsFinished ∧ next.IsSettled after := by
  obtain ⟨_, _, ended⟩ | ⟨_, _, _, _, ended⟩ |
    ⟨block, program, machine, _, compiles, loaded, ended⟩ := advance_cases session line memory
  · cases ended.symm.trans succeeds
  · cases ended.symm.trans succeeds
  · obtain ⟨kept, finished⟩ := settled.run compiles loaded
    rw [ended, conclude] at succeeds
    generalize (machine.run session.values).perform memory = run at kept finished succeeds
    obtain ⟨outcome, stored⟩ := run
    obtain ⟨succeeded, rfl⟩ := Prod.mk.inj succeeds
    obtain ⟨⟨found, frame⟩, rfl, same⟩ := Outcome.map_eq_ok.1 succeeded
    cases same
    refine ⟨finished found frame rfl, kept, settled.vocabulary, fun binding member => ?_⟩
    obtain ⟨slot, _, isSet⟩ := mem_bindings.1 member
    exact isFinished_of_value? kept isSet

end Settled

/-! ### Lines -/

/-- The line is evaluated: it is neither empty nor about the session. -/
def IsEvaluated (line : String) : Prop :=
  line ∉ ["", ":help", ":env", ":code", ":quit", ":exit"]

section Lines

variable {session next : Session} {input : String} {memory after : Store} {value : Value}

theorem answer_of_isEvaluated (evaluated : IsEvaluated (Text.trim input)) :
    session.answer input = session.evaluateLine (Text.trim input) := by
  simp only [IsEvaluated, List.mem_cons, List.not_mem_nil, or_false, not_or] at evaluated
  obtain ⟨empty, help, env, code, quit, exit⟩ := evaluated
  simp only [answer, empty, help, env, code, quit, exit, if_false, or_self]

/-- A line that is not evaluated leaves everything as it was, but for what is shown. -/
theorem respond_of_aside (settled : session.IsSettled memory)
    (aside : ¬IsEvaluated (Text.trim input)) :
    ∃ reply, session.respond input memory = (reply, memory) ∧
      reply.session.bindings = session.bindings ∧
      reply.session.vocabulary = session.vocabulary := by
  have answers {answer : Run Reply} {reply : Reply} (isAnswer : session.answer input = answer)
      (known : answer = pure reply) : session.respond input memory = (reply, memory) := by
    rw [respond, isAnswer, known]
    rfl
  rw [answer] at answers
  simp only [IsEvaluated, List.mem_cons, List.not_mem_nil, or_false, not_not] at aside
  by_cases blank : Text.trim input = ""
  · exact ⟨_, answers (if_pos blank) rfl, rfl, rfl⟩
  rw [if_neg blank] at answers
  by_cases help : Text.trim input = ":help"
  · exact ⟨_, answers (if_pos help) rfl, rfl, rfl⟩
  rw [if_neg help] at answers
  by_cases env : Text.trim input = ":env"
  · obtain ⟨shown, shows⟩ := exists_environment settled
    exact ⟨_, answers (if_pos env) (by rw [shows, pure_bind]), rfl, rfl⟩
  rw [if_neg env] at answers
  by_cases code : Text.trim input = ":code"
  · exact ⟨_, answers (if_pos code) rfl, rfl, rfl⟩
  rw [if_neg code] at answers
  have quit := aside.resolve_left blank |>.resolve_left help |>.resolve_left env
    |>.resolve_left code
  exact ⟨_, answers (if_pos quit) rfl, rfl, rfl⟩

/-- What a line is answered with, once it is known how it is evaluated. -/
def conclusion (session : Session) (line shown : String) :
    Outcome (Value × Session) → Run Reply
  | .error failure => return session.reply (shown ++ failure.render line ++ "\n")
  | .ok (value, next) => do
      let text ← value.text
      return next.reply (shown ++ text ++ "\n")

/-- A line is evaluated to the end before anything is said about it. -/
theorem evaluateLine_eq (line : String) :
    session.evaluateLine line = (do
      let shown ← session.preface line
      let ended ← Action.attempt (session.advance line)
      session.conclusion line shown ended) := by
  have lifted {α β : Type} (result : α) (next : α → Run β) :
      (liftM (.ok result : Outcome α) : Run α) >>= next = next result := rfl
  have same : session.bindings.map Prod.fst = session.names := rfl
  rw [evaluateLine, preface, advance, same]
  cases Block.parse line with
  | error failure => rfl
  | ok block =>
      rw [lifted]
      dsimp only
      cases block.compile session.vocabulary session.names with
      | error failure => rfl
      | ok program =>
          rw [lifted]
          dsimp only
          cases session.showsCode with
          | true =>
              simp only [if_true, bind_assoc, pure_bind]
              refine bind_congr fun listing => bind_congr fun ended => ?_
              cases ended with
              | error | ok => rfl
          | false => rfl

theorem respond_of_perform
    (evaluated : IsEvaluated (Text.trim input)) {ended : Outcome (Value × Session)}
    (ends : (session.advance (Text.trim input)).perform memory = (ended, after)) {shown : String}
    (shows : session.preface (Text.trim input) = pure shown) {reply : Reply}
    (concludes : session.conclusion (Text.trim input) shown ended = pure reply) :
    session.respond input memory = (reply, after) := by
  have performs : (session.answer input).perform memory = (.ok reply, after) := by
    rw [answer_of_isEvaluated evaluated, evaluateLine_eq, shows, pure_bind]
    refine (Action.bind_of_ok (congrArg (fun ended => (Except.ok ended.1, ended.2)) ends)).trans ?_
    rw [concludes]
    rfl
  rw [respond, performs]

/-- What is shown of a line that fails is what was shown before, and the failure. -/
theorem respond_of_error (settled : session.IsSettled memory)
    (evaluated : IsEvaluated (Text.trim input)) {failure : Failure}
    (fails : (session.advance (Text.trim input)).perform memory = (.error failure, after)) :
    ∃ shown, session.preface (Text.trim input) = pure shown ∧
      session.respond input memory =
        (session.reply (shown ++ failure.render (Text.trim input) ++ "\n"), after) := by
  obtain ⟨shown, shows⟩ := exists_preface settled (Text.trim input)
  exact ⟨shown, shows, respond_of_perform evaluated fails shows rfl⟩

/-- What is shown of a line that succeeds is what was shown before, and the value. -/
theorem respond_of_ok (settled : session.IsSettled memory)
    (evaluated : IsEvaluated (Text.trim input))
    (succeeds : (session.advance (Text.trim input)).perform memory = (.ok (value, next), after)) :
    ∃ shown text, session.preface (Text.trim input) = pure shown ∧
      (value.text : Run String) = pure text ∧
      session.respond input memory = (next.reply (shown ++ text ++ "\n"), after) := by
  obtain ⟨shown, shows⟩ := exists_preface settled (Text.trim input)
  obtain ⟨text, texts⟩ := (settled.advance_ok succeeds).1.text
  refine ⟨shown, text, shows, texts, respond_of_perform evaluated succeeds shows ?_⟩
  rw [conclusion, texts, pure_bind]

end Lines

end Session

end PointFree
