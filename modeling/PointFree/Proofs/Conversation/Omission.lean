import PointFree.Proofs.Comparison.Settled
import PointFree.Proofs.Conversation
import PointFree.Proofs.Conversation.Bindings
import PointFree.Proofs.Renumbering

/-!
Contract: sessions that differ in numbers alone, and leaving out the lines that fail.

A session is known by the names that are bound and by what is bound to them. Where two
sessions have the same names, bound to values that differ in numbers alone, every line is
answered with the same text and leaves sessions that are alike again.

A line that fails leaves the session as it was, but what it did to the memory stays. New
functions, frames and programs do no harm: they take numbers, and nothing depends on these. An
update of a variable in a frame that was there before is seen by the functions made around
that frame. Where no failing line makes one, the lines that fail can be left out, and every
other line is answered as before.
-/

namespace PointFree

open Correspondence Renumbering

namespace Session

/-- The same names, bound to the same but for numbers. -/
structure Alike (W : renumbering.World) (session session' : Session) : Prop where
  vocabulary : session.vocabulary = session'.vocabulary
  showsCode : session.showsCode = session'.showsCode
  words : ∀ entry ∈ session.vocabulary.entries, renumbering.Values W entry.2 entry.2
  bindings : Lists (Pairs renumbering.Same renumbering.Values) W session.bindings
    session'.bindings

instance : Lasting Alike where
  mono later alike :=
    { alike with
      words := fun entry member => (alike.words entry member).mono later
      bindings := alike.bindings.mono later }

/-- The same text, and sessions that are alike. -/
structure Replies (W : renumbering.World) (reply reply' : Reply) : Prop where
  text : reply.text = reply'.text
  session : Alike W reply.session reply'.session
  ended : reply.ended = reply'.ended

instance : Lasting Replies where
  mono later replies := { replies with session := Lasting.mono later replies.session }

section Evaluating

variable {W : renumbering.World} {session session' : Session}

theorem Alike.names (alike : Alike W session session') : session.names = session'.names := by
  rw [Session.names, Session.names, ← List.forall₂_eq_eq_eq ]
  exact List.forall₂_map_left_iff.2 (List.forall₂_map_right_iff.2
    (alike.bindings.imp fun _ _ pairs => pairs.1))

theorem Alike.values (alike : Alike W session session') :
    Rows renumbering.Values W session.values session'.values :=
  List.forall₂_map_left_iff.2 (List.forall₂_map_right_iff.2
    (alike.bindings.imp fun _ _ pairs => pairs.2))

/-- What is known from the start decides the same on both sides. -/
theorem Actions.known {α β β' : Type} {B : renumbering.World → β → β' → Prop}
    (outcome : Outcome α) {next : α → Run β} {next' : α → Run β'}
    (rest : ∀ result, outcome = .ok result → renumbering.Actions W B (next result) (next' result)) :
    renumbering.Actions W B (liftM outcome >>= next) (liftM outcome >>= next') := by
  cases outcome with
  | error failure =>
      have same : renumbering.Failures failure failure := ⟨rfl, rfl, trivial⟩
      exact Actions.fail same
  | ok result => exact rest result rfl

/-- The slots of partners are bound to the same names. -/
theorem bindings_alike {memory memory' : Store} (stores : Stores renumbering.Values W memory memory')
    {frame frame' : Nat} (frames : Partners .frame W frame frame') (globals : List (String × Nat)) :
    Lists (Pairs renumbering.Same renumbering.Values) W (memory.bindings globals frame)
      (memory'.bindings globals frame') := by
  induction globals with
  | nil => exact .nil
  | cons entry rest inductionHypothesis =>
      have contents := stores.slot? frames entry.2
      rw [Store.bindings, Store.bindings, List.filterMap_cons, List.filterMap_cons, Store.value?,
        Store.value?]
      generalize memory.heap.slot? frame entry.2 = content at contents
      generalize memory'.heap.slot? frame' entry.2 = content' at contents
      cases contents with
      | none => exact inductionHypothesis
      | some contents =>
          cases contents with
          | none => exact inductionHypothesis
          | some values => exact .cons ⟨rfl, values⟩ inductionHypothesis

theorem Alike.runProgram (alike : Alike W session session') {block : Block} {program : Program}
    (compiles : block.compile session.vocabulary session.names = .ok program) :
    renumbering.Actions W (Pairs renumbering.Values Alike) (session.runProgram program)
      (session'.runProgram program) := by
  obtain ⟨machine, _, _, _, _, _, loaded, made⟩ := Block.compile_machine compiles defaultCallLimit
  have known := made.loaded.allConstantsWritten (Written.values renumbering W) alike.words
  refine Actions.known _ fun found isMachine => ?_
  cases loaded.symm.trans isMachine
  refine Actions.bind (run known alike.values) fun later ended ended' pairs => ?_
  intro U after _ _ _ memory memory' stores
  have since := le_trans later after
  refine .inr ⟨U, le_rfl, stores, .ok ⟨pairs.1.mono after, ?_⟩⟩
  exact
    { alike with
      words := fun entry member => (alike.words entry member).mono since
      bindings := bindings_alike stores (after _ _ _ pairs.2) program.globals }

theorem Alike.advance (alike : Alike W session session') (line : String) :
    renumbering.Actions W (Pairs renumbering.Values Alike) (session.advance line)
      (session'.advance line) := by
  rw [Session.advance, Session.advance, ← alike.vocabulary, ← alike.names]
  refine Actions.known _ fun block _ => Actions.known _ fun program compiles => ?_
  exact alike.runProgram compiles

end Evaluating

/-! ### What is shown -/

section Showing

variable {W : renumbering.World} {session session' : Session}

theorem listingLine_alike {constants : Array Value}
    (known : ∀ value ∈ constants, renumbering.Values W value value) (line : ListingLine) :
    renumbering.Actions W renumbering.Texts (line.text constants) (line.text constants) := by
  cases line with
  | heading | unknown => exact Actions.pure rfl
  | instruction position opcode operands =>
      have comments : renumbering.Actions W renumbering.Texts
          (constantComment constants opcode operands)
          (constantComment constants opcode operands) := by
        unfold constantComment
        split
        · split
          · next value found =>
              refine Actions.bind (known value (Array.mem_of_getElem? found)).text ?_
              intro _ _ text _ same
              cases same
              exact Actions.pure rfl
          · exact Actions.pure rfl
        · exact Actions.pure rfl
      refine Actions.bind comments fun _ comment _ same => ?_
      cases same
      exact Actions.pure rfl

theorem listing_alike {program : Program}
    (known : ∀ value ∈ program.constants, renumbering.Values W value value) :
    renumbering.Actions W renumbering.Texts program.listing program.listing := by
  have lines : Lists renumbering.Same W program.listingLines program.listingLines :=
    List.forall₂_same.2 fun _ _ => rfl
  refine Actions.bind (Actions.mapM (B := renumbering.Texts) (fun later line _ same => ?_) lines) ?_
  · cases same
    exact listingLine_alike (fun value member => (known value member).mono later) line
  · intro _ _ texts texts' same
    have equal : texts = texts' := List.forall₂_eq_eq_eq ▸ same
    cases equal
    exact Actions.pure rfl

theorem Alike.preface (alike : Alike W session session') (line : String) :
    renumbering.Actions W renumbering.Texts (session.preface line) (session'.preface line) := by
  rw [Session.preface, Session.preface, ← alike.vocabulary, ← alike.names, ← alike.showsCode]
  split
  · exact Actions.pure rfl
  · dsimp only
    split
    · exact Actions.pure rfl
    · next program compiles =>
        split
        · refine Actions.bind (listing_alike ?_) fun _ listing _ same => ?_
          · exact Block.compile_constants (Written.values renumbering W) alike.words compiles
          · cases same
            exact Actions.pure rfl
        · exact Actions.pure rfl

theorem bindingLine_alike {binding binding' : String × Value}
    (pairs : Pairs renumbering.Same renumbering.Values W binding binding') :
    renumbering.Actions W renumbering.Texts (bindingLine binding) (bindingLine binding') := by
  obtain ⟨name, value⟩ := binding
  obtain ⟨name', value'⟩ := binding'
  obtain ⟨same, values⟩ := pairs
  cases same
  refine Actions.bind values.text fun _ text _ same => ?_
  cases same
  exact Actions.pure rfl

theorem Alike.environment (alike : Alike W session session') :
    renumbering.Actions W renumbering.Texts session.environment session'.environment := by
  have pairs := alike.bindings
  rw [Session.environment, Session.environment, ← List.Forall₂.length_eq pairs]
  generalize session.bindings = bindings at pairs
  generalize session'.bindings = bindings' at pairs
  cases pairs with
  | nil => exact Actions.pure rfl
  | cons first others =>
      have lines := Actions.mapM (c := renumbering) (A := Pairs renumbering.Same renumbering.Values)
        (B := renumbering.Texts) (fun _ _ _ pairs => bindingLine_alike pairs)
        (.cons first others)
      refine Actions.bind lines ?_
      intro _ _ texts texts' same
      have equal : texts = texts' := List.forall₂_eq_eq_eq ▸ same
      cases equal
      exact Actions.pure rfl

/-! ### Answers -/

theorem Alike.conclusion (alike : Alike W session session') (line shown : String)
    {ended ended' : Outcome (Value × Session)}
    (outcomes : renumbering.Outcomes (Pairs renumbering.Values Alike W) ended ended') :
    renumbering.Actions W Replies (session.conclusion line shown ended)
      (session'.conclusion line shown ended') := by
  cases outcomes with
  | error failures =>
      cases failures.eq_of_literal fun _ _ => id
      exact Actions.pure ⟨rfl, alike, rfl⟩
  | ok pairs =>
      refine Actions.bind pairs.1.text fun later text _ same => ?_
      cases same
      exact Actions.pure ⟨rfl, Lasting.mono later pairs.2, rfl⟩

theorem Alike.evaluateLine (alike : Alike W session session') (line : String) :
    renumbering.Actions W Replies (session.evaluateLine line) (session'.evaluateLine line) := by
  rw [evaluateLine_eq, evaluateLine_eq]
  refine Actions.bind (alike.preface line) fun first shown _ same => ?_
  cases same
  have steadily : renumbering.Steadily _ (Pairs renumbering.Values Alike) (session.advance line)
      (session'.advance line) := fun _ later _ _ calls _ _ stores =>
    ((alike.advance line).mono first later calls stores).meets
  refine Actions.bind steadily.attempt fun second _ _ outcomes => ?_
  exact Alike.conclusion (Lasting.mono (le_trans first second) alike) line shown outcomes

theorem Alike.answer (alike : Alike W session session') (input : String) :
    renumbering.Actions W Replies (session.answer input) (session'.answer input) := by
  rw [Session.answer, Session.answer, ← alike.vocabulary, ← alike.showsCode]
  dsimp only
  split
  · exact Actions.pure ⟨rfl, alike, rfl⟩
  split
  · exact Actions.pure ⟨rfl, alike, rfl⟩
  split
  · refine Actions.bind alike.environment fun later shown _ same => ?_
    cases same
    exact Actions.pure ⟨rfl, Lasting.mono later alike, rfl⟩
  split
  · exact Actions.pure ⟨rfl, ⟨rfl, rfl, alike.words, alike.bindings⟩, rfl⟩
  split
  · exact Actions.pure ⟨rfl, alike, rfl⟩
  · exact alike.evaluateLine _

/-- Sessions that are alike answer every line with the same text and stay alike. -/
theorem Alike.respond (alike : Alike W session session') {memory memory' : Store}
    (stores : Stores renumbering.Values W memory memory') (input : String) :
    ∃ V : renumbering.World,
      Replies V (session.respond input memory).1 (session'.respond input memory').1 ∧
        Stores renumbering.Values V (session.respond input memory).2
          (session'.respond input memory').2 := by
  obtain ⟨V, later, between, outcomes⟩ :=
    (Actions.perform enters (alike.answer input) stores).meets
  refine ⟨V, ?_⟩
  rw [Session.respond, Session.respond]
  generalize (session.answer input).perform memory = ended at between outcomes
  generalize (session'.answer input).perform memory' = ended' at between outcomes
  obtain ⟨outcome, after⟩ := ended
  obtain ⟨outcome', after'⟩ := ended'
  cases outcomes with
  | error failures =>
      cases failures.eq_of_literal fun _ _ => id
      exact ⟨⟨rfl, Lasting.mono later alike, rfl⟩, between⟩
  | ok replies => exact ⟨replies, between⟩

end Showing

instance : DecidablePred IsEvaluated :=
  fun line => inferInstanceAs (Decidable (line ∉ ["", ":help", ":env", ":code", ":quit", ":exit"]))

/-- The line is evaluated, and its evaluation fails. -/
def fails (session : Session) (input : String) (memory : Store) : Bool :=
  decide (IsEvaluated (Text.trim input)) &&
    !((session.advance (Text.trim input)).perform memory).1.isOk

/-- The texts of a conversation, each with whether it answers a line that fails. -/
def transcript (session : Session) : List String → Store → List (Bool × String)
  | [], _ => [(false, farewell)]
  | line :: lines, memory =>
      let answer := session.respond line memory
      (session.fails line memory, answer.1.text) ::
        if answer.1.ended then [] else answer.1.session.transcript lines answer.2

/-- The lines of a conversation without those that fail. -/
def surviving (session : Session) : List String → Store → List String
  | [], _ => []
  | line :: lines, memory =>
      let answer := session.respond line memory
      let rest := if answer.1.ended then lines else answer.1.session.surviving lines answer.2
      if session.fails line memory then rest else line :: rest

/-- No line that fails has updated a variable in a frame that was there before. -/
def Undisturbed (session : Session) : List String → Store → Prop
  | [], _ => True
  | line :: lines, memory =>
      let answer := session.respond line memory
      (session.fails line memory → ∀ frame < memory.heap.frames.size,
          answer.2.heap.frames[frame]? = memory.heap.frames[frame]?) ∧
        (answer.1.ended = false → answer.1.session.Undisturbed lines answer.2)

section Lines

variable {session session' : Session} {line : String} {lines : List String}
variable {memory memory' after : Store}

theorem converse_cons (session : Session) (line : String) (lines : List String) (memory : Store) :
    (session.converse (line :: lines) memory).1 =
      (session.respond line memory).1.text ::
        if (session.respond line memory).1.ended then []
        else ((session.respond line memory).1.session.converse lines
          (session.respond line memory).2).1 := by
  have taken (action : StateM Store Reply) (next : Reply → StateM Store (List String)) :
      (action >>= next) memory = next (action memory).1 (action memory).2 := rfl
  rw [converse, taken]
  generalize session.respond line memory = answer
  obtain ⟨reply, after⟩ := answer
  cases ends : reply.ended with
  | true => rw [if_pos rfl, if_pos rfl]; rfl
  | false => rw [if_neg Bool.false_ne_true, if_neg Bool.false_ne_true]; rfl

/-- The texts of a conversation are what its lines are answered with. -/
theorem converse_eq (session : Session) (lines : List String) (memory : Store) :
    (session.converse lines memory).1 = (session.transcript lines memory).map Prod.snd := by
  induction lines generalizing session memory with
  | nil => rfl
  | cons line lines inductionHypothesis =>
      rw [converse_cons, transcript, List.map_cons, inductionHypothesis, apply_ite (List.map Prod.snd),
        List.map_nil]

/-! ### A line that fails -/

theorem exists_failure (fails : session.fails line memory = true) :
    IsEvaluated (Text.trim line) ∧ ∃ failure after,
      (session.advance (Text.trim line)).perform memory = (.error failure, after) := by
  obtain ⟨evaluated, failed⟩ := Bool.and_eq_true_iff.1 fails
  refine ⟨of_decide_eq_true evaluated, ?_⟩
  generalize (session.advance (Text.trim line)).perform memory = ended at failed
  obtain ⟨failure | result, after⟩ := ended
  · exact ⟨failure, after, rfl⟩
  · cases failed

/-- An evaluation takes nothing away, and counts the calls in progress down again. -/
theorem advance_leaves (session : Session) (line : String) (memory : Store) :
    memory.Grows ((session.advance line).perform memory).2 ∧
      ((session.advance line).perform memory).2.depth = memory.depth := by
  obtain ⟨_, _, ended⟩ | ⟨_, _, _, _, ended⟩ | ⟨_, _, machine, _, _, _, ended⟩ :=
    advance_cases session line memory
  · rw [ended]
    exact ⟨.refl memory, rfl⟩
  · rw [ended]
    exact ⟨.refl memory, rfl⟩
  · rw [ended]
    exact ⟨machine.grows_run session.values memory, machine.depth_run session.values memory⟩

/-- A line that fails and has updated nothing that was there before leaves all as it was. -/
theorem IsSettled.respond_failure (settled : session.IsSettled memory)
    (fails : session.fails line memory = true)
    (undisturbed : ∀ frame < memory.heap.frames.size,
      (session.respond line memory).2.heap.frames[frame]? = memory.heap.frames[frame]?) :
    (session.respond line memory).1.session = session ∧
      (session.respond line memory).1.ended = false ∧
      Keeps memory (session.respond line memory).2 ∧
      (session.respond line memory).2.depth = memory.depth := by
  obtain ⟨evaluated, failure, after, failed⟩ := exists_failure fails
  obtain ⟨shown, _, responds⟩ := respond_of_error settled evaluated failed
  have leaves := advance_leaves session (Text.trim line) memory
  rw [failed] at leaves
  rw [responds] at undisturbed ⊢
  refine ⟨rfl, rfl, ⟨leaves.1.stamps, fun isFrame => ?_, leaves.1.programs⟩, leaves.2⟩
  exact (undisturbed _ (Array.getElem?_eq_some_iff.1 isFrame).1).trans isFrame

/-- A line that cannot be read changes nothing at all. -/
theorem IsSettled.respond_unread (settled : session.IsSettled memory)
    (evaluated : IsEvaluated (Text.trim line))
    (unread : (Block.parse (Text.trim line)).isOk = false) :
    (session.respond line memory).2 = memory := by
  cases reads : Block.parse (Text.trim line) with
  | ok block =>
      rw [reads] at unread
      cases unread
  | error failure =>
      obtain ⟨shown, _, responds⟩ :=
        respond_of_error settled evaluated (advance_of_unread reads memory)
      rw [responds]

/-! ### Conversations -/

/-- The lines that do not fail, said to a session that is alike. -/
theorem Alike.converse_surviving {W : renumbering.World} (alike : Alike W session session')
    (stores : Stores renumbering.Values W memory memory') (sound : session.IsSound memory)
    (undisturbed : session.Undisturbed lines memory) :
    (session'.converse (session.surviving lines memory) memory').1 =
      ((session.transcript lines memory).filter fun text => !text.1).map Prod.snd := by
  induction lines generalizing W session session' memory memory' with
  | nil => rfl
  | cons line lines inductionHypothesis =>
      obtain ⟨kept, others⟩ := undisturbed
      rw [surviving, transcript]
      cases failed : session.fails line memory with
      | true =>
          obtain ⟨same, goes, keeps, depth⟩ := sound.toIsSettled.respond_failure failed (kept failed)
          have later := sound.respond line
          have remaining := others goes
          rw [same] at later remaining
          rw [goes, if_pos rfl, same, if_neg Bool.false_ne_true, if_neg Bool.false_ne_true,
            List.filter_cons_of_neg (by simp)]
          exact inductionHypothesis alike (stores.keep keeps (.refl _) (depth.trans stores.depth))
            later remaining
      | false =>
          obtain ⟨V, replies, between⟩ := alike.respond stores line
          rw [if_neg Bool.false_ne_true, converse_cons, List.filter_cons_of_pos rfl, List.map_cons,
            ← replies.text, ← replies.ended]
          cases ends : (session.respond line memory).1.ended with
          | true => rfl
          | false =>
              have rest := inductionHypothesis replies.session between (sound.respond line)
                (others ends)
              rw [if_neg Bool.false_ne_true, if_neg Bool.false_ne_true, if_neg Bool.false_ne_true,
                rest]

/-- Nothing but the words of the vocabulary has been made before the first line. -/
theorem Alike.start : ∃ W : renumbering.World,
    Alike W (.start (Vocabulary.standard Store.empty).1)
        (.start (Vocabulary.standard Store.empty).1) ∧
      Stores renumbering.Values W (Vocabulary.standard Store.empty).2
        (Vocabulary.standard Store.empty).2 := by
  let W : Renumbering.World :=
    { partners := fun kind item item' =>
        kind = .function ∧ item = item' ∧ item < Primitive.all.length
      unique := fun first second => by rw [first.2.1, second.2.1] }
  refine ⟨W, ⟨rfl, rfl, fun entry member => ?_, .nil⟩, ⟨rfl, ?_⟩⟩
  · obtain ⟨⟨primitive, place⟩, isPrimitive, rfl⟩ := List.mem_map.1 (List.mem_toArray.1 member)
    have inside := (List.mem_zipIdx isPrimitive).2.1
    refine .function (.mk ⟨rfl, rfl, ?_⟩ (.primitive primitive))
    simpa [Store.empty] using inside
  · rintro _ item _ ⟨rfl, rfl, inside⟩
    have made : item < 0 + Primitive.all.length := by omega
    exact .function made made

/-- Every session of a conversation is like itself. -/
theorem Reached.exists_alike (reached : Reached session memory) :
    ∃ W : renumbering.World, Alike W session session ∧
      Stores renumbering.Values W memory memory := by
  induction reached with
  | start => exact Alike.start
  | line input _ inductionHypothesis =>
      obtain ⟨W, alike, stores⟩ := inductionHypothesis
      obtain ⟨V, replies, between⟩ := alike.respond stores input
      exact ⟨V, replies.session, between⟩

/-- Where no line that fails has updated a variable in a frame that was there before, leaving out
the lines that fail leaves the text that answers every other line unchanged. -/
theorem Reached.failures_omitted (reached : Reached session memory)
    (undisturbed : session.Undisturbed lines memory) :
    (session.converse lines memory).1 = (session.transcript lines memory).map Prod.snd ∧
      (session.converse (session.surviving lines memory) memory).1 =
        ((session.transcript lines memory).filter fun text => !text.1).map Prod.snd := by
  obtain ⟨W, alike, stores⟩ := reached.exists_alike
  exact ⟨converse_eq session lines memory,
    alike.converse_surviving stores reached.isSound undisturbed⟩

/-- One line fails when it is run, before a frame is there, and another is never run. -/
theorem Reached.failures_omitted_definition :
    ∃ session memory, Reached session memory ∧
      session.Undisturbed ["- 'a'", "b ← 'c'", "'", "b"] memory ∧
      session.surviving ["- 'a'", "b ← 'c'", "'", "b"] memory = ["b ← 'c'", "b"] ∧
      (session.converse ["b ← 'c'", "b"] memory).1 = ["'c'\n", "'c'\n", farewell] := by
  have third := (Reached.start.line "- 'a'").line "b ← 'c'"
  have undisturbed : (Session.start (Vocabulary.standard Store.empty).1).Undisturbed
      ["- 'a'", "b ← 'c'", "'", "b"] (Vocabulary.standard Store.empty).2 := by
    refine ⟨fun _ frame inside => absurd inside (Nat.not_lt_zero frame), fun _ =>
      ⟨fun failed => absurd failed (by decide +kernel), fun _ => ⟨fun _ frame _ => ?_, fun _ =>
        ⟨fun failed => absurd failed (by decide +kernel), fun _ => trivial⟩⟩⟩⟩
    rw [third.isSound.toIsSettled.respond_unread (by decide +kernel) (by decide +kernel)]
  have survives : (Session.start (Vocabulary.standard Store.empty).1).surviving
      ["- 'a'", "b ← 'c'", "'", "b"] (Vocabulary.standard Store.empty).2 = ["b ← 'c'", "b"] := by
    decide +kernel
  refine ⟨_, _, .start, undisturbed, survives, ?_⟩
  rw [← survives, (Reached.start.failures_omitted undisturbed).2]
  decide +kernel

/-- A line that updates a variable before it fails is noticed by a later line. -/
theorem Reached.failures_omitted_update :
    let session := Session.start (Vocabulary.standard Store.empty).1
    let memory := (Vocabulary.standard Store.empty).2
    let lines := ["n ← 'a' ⋄ Set ← \x7bn ↩ 𝕩\x7d ⋄ Get ← \x7bn\x7d", "- Set 'b'", "Get 'x'"]
    Reached session memory ∧
      (session.transcript lines memory).map Prod.fst = [false, true, false, false] ∧
      (session.converse (session.surviving lines memory) memory).1 ≠
        ((session.transcript lines memory).filter fun text => !text.1).map Prod.snd :=
  ⟨.start, by decide +kernel⟩

end Lines

end Session

end PointFree
