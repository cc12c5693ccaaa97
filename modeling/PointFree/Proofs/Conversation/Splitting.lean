import PointFree.Proofs.Conversation.Bindings
import PointFree.Proofs.Conversation.Omission
import PointFree.Proofs.Correspondence.Anonymous
import PointFree.Proofs.Joining.Acceptance

/-!
Contract: splitting a program into lines.

The machine of a line goes the way of its tree. What the session keeps of a line are the values of
the environment in which its tree was evaluated, so the lines of a session are the lines of an
evaluation line by line.

The values that are bound are copied from line to line, while a function keeps the frame it was made
in. A program sees one frame instead. The difference shows where a function of one line has to do
with a variable that another line mentions, and one of the two updates it. Lines without such a pair
can be joined: the value of the last one is the value of the program that they are together.
-/

namespace PointFree

open Correspondence Meaning Splitting

variable {lines : Nat → Block} {next : Nat}

/-- What a session keeps of a frame is what is carried on of the environment. -/
theorem Meaning.Bindings.carried {related : Value → Value → Prop} {globals : List (String × Nat)}
    {store : Store} {memory' : Memory Lexical} {frame environment : Nat}
    (bindings : Bindings related globals store memory' frame environment) :
    List.Forall₂ (fun binding binding' => binding.1 = binding'.1 ∧ related binding.2 binding'.2)
      (store.bindings globals frame)
      (carried memory'.heap environment (globals.map Prod.fst)) := by
  induction globals with
  | nil => exact .nil
  | cons entry globals inductionHypothesis =>
      obtain ⟨name, slot⟩ := entry
      obtain ⟨content, isSlot, options⟩ := bindings name slot (.head _)
      have rest := inductionHypothesis fun word place member => bindings word place (.tail _ member)
      have isSet : store.value? frame slot = content := by rw [Store.value?, isSlot, Option.join_some]
      rw [Store.bindings, List.filterMap_cons, isSet, List.map_cons, Splitting.carried,
        List.filterMap_cons]
      generalize memory'.heap.value? environment name = content' at options
      cases options with
      | none => exact rest
      | some values => exact .cons ⟨rfl, values⟩ rest

namespace Session

/-- A session between two lines, with what the evaluation at once has come to. -/
structure Keeps (lines : Nat → Block) (next : Nat) (session : Session) (store : Store)
    (memory' : Memory Lexical) : Prop where
  vocabulary : session.vocabulary = .standardFrom 0
  known : ∃ (memory : Memory Lexical) (bindings : List (String × Value)) (W : Meaning.World)
    (V : Splitting.World), compiled.memories W store memory ∧
      List.Forall₂ (fun binding binding' => binding.1 = binding'.1 ∧
        compiled.Values W binding.2 binding'.2) session.bindings bindings ∧
      Ready lines next bindings V memory memory'

section Keeping

variable {session later : Session} {line : String} {store after : Store} {value : Value}
variable {memory' : Memory Lexical} {program : Program} {frame : Nat}

theorem Keeps.names (keeps : session.Keeps lines next store memory') :
    session.names = declaredBefore lines next := by
  obtain ⟨_, bindings, _, _, _, both, ready⟩ := keeps.known
  rw [← ready.names, Session.names]
  exact List.forall₂_eq_eq_eq ▸ List.forall₂_map_left_iff.2 (List.forall₂_map_right_iff.2
    (both.imp fun _ _ same => same.1))

/-- A line that succeeds in the session does so in the evaluation at once. -/
theorem Keeps.succ
    (independent : ∀ {earlier later}, earlier < later →
      (lines earlier).Independent (lines later))
    (straight : (lines next).IsStraight) (keeps : session.Keeps lines next store memory')
    (leaves : session.Leaves line store value later after (lines next) program frame)
    (offset : Nat) :
    ∃ value' after',
      (Statement.evaluateAll ⟨0, declaredBefore lines next, .standardFrom 0, defaultCallLimit⟩
        ((lines next).statements.map (Statement.shift offset))).perform memory' =
          (.ok value', after') ∧
      value.anonymous = value'.anonymous ∧ later.Keeps lines (next + 1) after after' := by
  obtain ⟨memory, bindings, W, V, memories, both, ready⟩ := keeps.known
  obtain ⟨machine, loaded, runs⟩ := leaves.runs
  obtain ⟨machine', _, _, _, _, _, loaded', made⟩ :=
    Block.compile_machine leaves.compiles defaultCallLimit
  cases loaded.symm.trans loaded'
  have names : bindings.map Prod.fst = session.names := ready.names.trans keeps.names.symm
  have rows : Rows compiled.Values W session.values (bindings.map Prod.snd).toArray :=
    List.forall₂_map_left_iff.2 (List.forall₂_map_right_iff.2 (both.imp fun _ _ same => same.2))
  have vocabularies : Vocabularies (compiled.Values W) session.vocabulary (.standardFrom 0) := by
    rw [keeps.vocabulary]
    exact Vocabularies.standardFrom W 0
  obtain ⟨U, _, between, outcomes⟩ := Meaning.Ends.run made memories vocabularies rows
  rw [runs] at between outcomes
  rw [← names] at between outcomes
  rcases ended : ((lines next).evaluate (.standardFrom 0) (bindings.map Prod.fst) defaultCallLimit
    (bindings.map Prod.snd).toArray).perform memory with ⟨failure | ⟨found, environment⟩, memory₁⟩
  · rw [ended] at outcomes
    cases outcomes
  rw [ended] at between outcomes
  cases outcomes with
  | ok related =>
      obtain ⟨values, bound⟩ := related
      obtain ⟨T, value', after', _, evaluated, values', ready'⟩ :=
        ready.line independent straight ended offset
      refine ⟨value', after', evaluated, values.anonymous.trans values'.anonymous, ?_, ?_⟩
      · rw [leaves.keeps]
        exact keeps.vocabulary
      · refine ⟨memory₁, _, U, T, between, ?_, ready'⟩
        have declared : program.globals.map Prod.fst = declaredBefore lines (next + 1) := by
          rw [leaves.globals.1, keeps.names, declaredBefore_succ]
        rw [leaves.keeps, ← declared]
        exact bound.carried

/-- A blank line changes nothing. -/
theorem Keeps.blank (nothing : (lines next).statements = [])
    (keeps : session.Keeps lines next store memory') :
    session.Keeps lines (next + 1) store memory' := by
  obtain ⟨memory, bindings, W, V, memories, both, ready⟩ := keeps.known
  refine ⟨keeps.vocabulary, memory, bindings, W, V, memories, both, ready.stores.succ, ?_, ?_, ?_⟩
  · exact fun chain member => Nat.lt_succ_of_lt (ready.past chain member)
  · rw [ready.names, declaredBefore_succ, Block.declares, nothing]
    exact (List.append_nil _).symm
  · intro name value member shares
    rw [Shares, if_pos rfl] at shares
    obtain ⟨line, after, mentions⟩ := shares
    have shares : Shares lines next next name := by
      rw [Shares, if_pos rfl]
      exact ⟨line, Nat.le_of_succ_le after, mentions⟩
    obtain ⟨value', isSet, values⟩ := ready.values member shares
    exact ⟨value', isSet, values_current _ values⟩

end Keeping

/-! ### All lines so far -/

section Following

variable {offsets : Nat → Nat} {session later : Session} {line : String} {store after : Store}
variable {value value' : Value} {begun memory' : Memory Lexical} {program : Program} {frame : Nat}

/-- What the evaluation at once has come to where the session stands between two lines. -/
structure Follows (lines : Nat → Block) (offsets : Nat → Nat) (begun : Memory Lexical) (next : Nat)
    (session : Session) (store : Store) (value' : Value) (memory' : Memory Lexical) : Prop where
  evaluated :
    (Statement.evaluateAll ⟨0, [], .standardFrom 0, defaultCallLimit⟩
      (joinedBefore lines offsets next)).perform begun = (.ok value', memory')
  keeps : session.Keeps lines next store memory'

theorem Follows.succ
    (independent : ∀ {earlier later}, earlier < later →
      (lines earlier).Independent (lines later))
    (straight : ∀ line, (lines line).IsStraight)
    (follows : Follows lines offsets begun next session store value' memory')
    (leaves : session.Leaves line store value later after (lines next) program frame) :
    ∃ value'' memory'', Follows lines offsets begun (next + 1) later after value'' memory'' ∧
      ((lines next).statements ≠ [] → value.anonymous = value''.anonymous) := by
  obtain ⟨value'', memory'', evaluated, same, keeps⟩ :=
    follows.keeps.succ independent (straight next) leaves (offsets next)
  by_cases nothing : (lines next).statements = []
  · rw [nothing] at evaluated
    cases evaluated
    refine ⟨value', memory', ⟨?_, keeps⟩, absurd nothing⟩
    rw [joinedBefore_succ, nothing, List.map_nil, List.append_nil]
    exact follows.evaluated
  · refine ⟨value'', memory'', ⟨?_, keeps⟩, fun _ => same⟩
    have more : (lines next).statements.map (Statement.shift (offsets next)) ≠ [] :=
      mt List.map_eq_nil_iff.1 nothing
    rw [joinedBefore_succ, Statement.evaluateAll_append (isPlain_joinedBefore straight) more,
      declares_joinedBefore, Action.perform]
    exact Action.bind_eq_ok.2 ⟨value', memory', follows.evaluated, evaluated⟩

theorem Follows.blank (nothing : (lines next).statements = [])
    (follows : Follows lines offsets begun next session store value' memory') :
    Follows lines offsets begun (next + 1) session store value' memory' := by
  refine ⟨?_, follows.keeps.blank nothing⟩
  rw [joinedBefore_succ, nothing, List.map_nil, List.append_nil]
  exact follows.evaluated

end Following

end Session

end PointFree

namespace PointFree

open Correspondence Meaning Splitting

/-- The tree of a line. A line that cannot be read has no statements. -/
def Block.ofLine (input : String) : Block :=
  match Block.parse (Text.trim input) with
  | .ok block => block
  | .error _ => .mk []

/-- The trees of lines, in order. After the last line nothing comes. -/
def Block.ofLines (lines : List String) (index : Nat) : Block :=
  (lines[index]?.map Block.ofLine).getD (.mk [])

/-- The program that lines are together, each as a session reads it. -/
def Text.joined (lines : List String) : String :=
  "\n".intercalate (lines.map Text.trim)

/-- A blank text has no statements. -/
theorem Block.parse_empty : Block.parse "" = .ok (.mk []) := by
  have reads : rawStatements "" = .ok [] := by
    rw [← Progress.resume_start, String.toList_empty, Progress.resume_nil]
    rfl
  rw [parse, reads]
  rfl

/-- Nothing stands in a program without statements. -/
theorem Block.Nests.statements_nil {around : List Block} {body : Block}
    (nests : (Block.mk []).Nests around body) : body.statements = [] := by
  induction nests with
  | whole => rfl
  | literal _ member _ inductionHypothesis =>
      rw [inductionHypothesis] at member
      cases member

/-- A program without statements keeps every rule. -/
theorem Block.isWellFormed_nil (vocabulary : Vocabulary) {externals : List String}
    (distinct : externals.Nodup) : (Block.mk []).IsWellFormed vocabulary externals := by
  have nothing {around : List Block} {body : Block} {statement : Statement}
      (nests : (Block.mk []).Nests around body) : statement ∉ body.statements := by
    rw [nests.statements_nil]
    exact List.not_mem_nil
  refine isWellFormed_of_clean fun fault faulty => ?_
  obtain ⟨earlier, name, later, rfl, member, _⟩ |
    ⟨_, body, nests, earlier, statement, later, split, _⟩ := faulty
  · exact absurd rfl ((List.nodup_append.1 distinct).2.2 name member name (.head _))
  · exact nothing nests (split ▸ List.mem_append_right _ (.head _))

/-- The memory where the statements of a program with these names begin. -/
def Memory.opened (names : List String) : Memory Lexical :=
  ⟨⟨#[.opening [] names], #[]⟩, Primitive.all.length, 0⟩

namespace Session

/-- The session and the memory after lines. -/
def through (session : Session) : List String → Store → Session × Store
  | [], memory => (session, memory)
  | line :: lines, memory =>
      let answer := session.respond line memory
      answer.1.session.through lines answer.2

/-- No line is about the session, and none fails. -/
def Succeeds (session : Session) : List String → Store → Prop
  | [], _ => True
  | line :: lines, memory =>
      let answer := session.respond line memory
      Text.trim line ∉ [":help", ":env", ":code", ":quit", ":exit"] ∧
        session.fails line memory = false ∧ answer.1.session.Succeeds lines answer.2

instance Succeeds.decidable : (session : Session) → (lines : List String) → (memory : Store) →
    Decidable (session.Succeeds lines memory)
  | _, [], _ => inferInstanceAs (Decidable True)
  | session, line :: lines, memory =>
      have := Succeeds.decidable (session.respond line memory).1.session lines
        (session.respond line memory).2
      inferInstanceAs (Decidable (_ ∧ _ ∧ _))

section Lines

variable {session next : Session} {line : String} {memory after : Store} {value : Value}
variable {blocks : Nat → Block} {offsets : Nat → Nat} {count : Nat}
variable {begun memory' : Memory Lexical} {value' : Value}

theorem isEvaluated (some : line ≠ "")
    (noCommand : line ∉ [":help", ":env", ":code", ":quit", ":exit"]) : IsEvaluated line := by
  rw [IsEvaluated, List.mem_cons, not_or]
  exact ⟨some, noCommand⟩

theorem exists_success (evaluated : IsEvaluated (Text.trim line))
    (succeeds : session.fails line memory = false) :
    ∃ value next after, (session.advance (Text.trim line)).perform memory =
      (.ok (value, next), after) := by
  rcases ended : (session.advance (Text.trim line)).perform memory with
    ⟨failure | ⟨value, next⟩, after⟩
  · rw [fails, ended, decide_eq_true evaluated] at succeeds
    cases succeeds
  · exact ⟨value, next, after, rfl⟩

theorem respond_of_blank (blank : Text.trim line = "") (memory : Store) :
    session.respond line memory = (session.reply "", memory) := by
  rw [respond, answer, if_pos blank]
  rfl

theorem Block.ofLine_of_blank (blank : Text.trim line = "") : Block.ofLine line = .mk [] := by
  rw [Block.ofLine, blank, Block.parse_empty]

/-- Where nothing is shown but values, nothing is shown before a value. -/
theorem preface_eq (values : session.showsCode = false) (line : String) :
    session.preface line = pure "" := by
  rw [preface, values]
  split
  · rfl
  · dsimp only
    split
    · rfl
    · rfl

/-- A session between two lines, with all that is known of the lines before. -/
structure Agrees (blocks : Nat → Block) (offsets : Nat → Nat) (begun : Memory Lexical)
    (count : Nat) (session : Session) (memory : Store) (value' : Value) (memory' : Memory Lexical) :
    Prop extends Follows blocks offsets begun count session memory value' memory' where
  reached : Reached session memory
  values : session.showsCode = false
  wellFormed : ∀ line < count,
    (blocks line).IsWellFormed (.standardFrom 0) (declaredBefore blocks line)

/-- A line that is evaluated. -/
theorem Agrees.succ
    (independent : ∀ {earlier later}, earlier < later →
      (blocks earlier).Independent (blocks later))
    (straight : ∀ line, (blocks line).IsStraight)
    (agrees : Agrees blocks offsets begun count session memory value' memory')
    (isTree : blocks count = Block.ofLine line) (evaluated : IsEvaluated (Text.trim line))
    (succeeds : session.fails line memory = false) :
    ∃ value next after text value'' memory'',
      (session.advance (Text.trim line)).perform memory = (.ok (value, next), after) ∧
      (value.text : Run String) = pure text ∧
      session.respond line memory = (next.reply (text ++ "\n"), after) ∧
      Agrees blocks offsets begun (count + 1) next after value'' memory'' ∧
      ((blocks count).statements ≠ [] → value.anonymous = value''.anonymous) := by
  obtain ⟨value, next, after, ended⟩ := exists_success evaluated succeeds
  have settled := agrees.reached.isSound.toIsSettled
  obtain ⟨shown, text, shows, texts, responds⟩ := respond_of_ok settled evaluated ended
  obtain ⟨block, program, frame, leaves⟩ := exists_leaves ended
  have same : blocks count = block := by rw [isTree, Block.ofLine, leaves.reads]
  subst same
  obtain ⟨value'', memory'', follows, values⟩ :=
    agrees.toFollows.succ independent straight leaves
  have nothing : shown = "" := by
    have same : (pure shown : Run String) = pure "" :=
      shows.symm.trans (preface_eq agrees.values _)
    exact Except.ok.inj (congrArg (fun action => (action.perform memory).1) same)
  rw [nothing, String.empty_append] at responds
  refine ⟨value, next, after, text, value'', memory'', ended, texts, responds,
    ⟨follows, ?_, ?_, ?_⟩, values⟩
  · have reached := agrees.reached.line line
    rwa [responds] at reached
  · rw [leaves.keeps]
    exact agrees.values
  · intro earlier before
    rcases Nat.lt_succ_iff_lt_or_eq.1 before with before | rfl
    · exact agrees.wellFormed earlier before
    · have compiles := leaves.compiles
      rw [agrees.keeps.vocabulary, agrees.keeps.names] at compiles
      exact Block.isWellFormed_of_compile compiles

/-- A line that is blank. -/
theorem Agrees.blank (agrees : Agrees blocks offsets begun count session memory value' memory')
    (isTree : blocks count = Block.ofLine line) (blank : Text.trim line = "") :
    Agrees blocks offsets begun (count + 1) session memory value' memory' := by
  have nothing : blocks count = .mk [] := isTree.trans (Block.ofLine_of_blank blank)
  refine ⟨agrees.toFollows.blank (congrArg Block.statements nothing), agrees.reached, agrees.values,
    fun earlier before => ?_⟩
  rcases Nat.lt_succ_iff_lt_or_eq.1 before with before | rfl
  · exact agrees.wellFormed earlier before
  · rw [nothing, ← agrees.keeps.names]
    exact Block.isWellFormed_nil _ agrees.reached.isSound.distinct

/-- Lines that do not fail. -/
theorem Agrees.through
    (independent : ∀ {earlier later}, earlier < later →
      (blocks earlier).Independent (blocks later))
    (straight : ∀ line, (blocks line).IsStraight)
    (agrees : Agrees blocks offsets begun count session memory value' memory')
    {lines : List String}
    (areTrees : ∀ (index : Nat) (line : String), lines[index]? = some line →
      blocks (count + index) = Block.ofLine line)
    (succeeds : session.Succeeds lines memory) :
    ∃ value'' memory'', Agrees blocks offsets begun (count + lines.length)
      (session.through lines memory).1 (session.through lines memory).2 value'' memory'' := by
  induction lines generalizing count session memory value' memory' with
  | nil => exact ⟨value', memory', agrees⟩
  | cons line lines inductionHypothesis =>
      obtain ⟨noCommand, succeeds, later⟩ := succeeds
      have isTree : blocks count = Block.ofLine line := areTrees 0 line rfl
      have trees : ∀ (index : Nat) (line : String), lines[index]? = some line →
          blocks (count + 1 + index) = Block.ofLine line := by
        intro index line isLine
        rw [Nat.add_right_comm]
        exact areTrees (index + 1) line isLine
      have length : count + (line :: lines).length = count + 1 + lines.length := by
        rw [List.length_cons]
        omega
      rw [length]
      by_cases blank : Text.trim line = ""
      · have responds : session.respond line memory = (session.reply "", memory) :=
          respond_of_blank blank memory
        rw [responds] at later
        rw [Session.through, responds]
        exact inductionHypothesis (agrees.blank isTree blank) trees later
      · have evaluated : IsEvaluated (Text.trim line) := by
          rw [IsEvaluated, List.mem_cons, not_or]
          exact ⟨blank, noCommand⟩
        obtain ⟨_, next, after, text, _, _, _, _, responds, agrees, _⟩ :=
          agrees.succ independent straight isTree evaluated succeeds
        rw [responds] at later
        rw [Session.through, responds]
        exact inductionHypothesis agrees trees later

/-- Before the first line, and before the first statement of a program with these names. -/
theorem Agrees.start (offsets : Nat → Nat) {names : List String}
    (declared : ∀ line, (blocks line).declares ⊆ names) :
    Agrees blocks offsets (Memory.opened names) 0 (.start (Vocabulary.standard Store.empty).1)
      (Vocabulary.standard Store.empty).2 .nil (Memory.opened names) := by
  have begun : ∀ line, (blocks line).declares ⊆ (Environment.opening [] names).names := by
    rw [Environment.names_opening]
    exact declared
  have stores : Splitting.Stores blocks 0 (splitting blocks 0).Values ⟨[], [], []⟩
      ⟨⟨#[], #[]⟩, Primitive.all.length, 0⟩ (Memory.opened names) :=
    ⟨rfl, rfl, rfl, .nil, nofun, rfl, ⟨_, rfl, begun⟩, .nil, nofun, nofun⟩
  have ready : Ready blocks 0 [] ⟨[], [], []⟩ ⟨⟨#[], #[]⟩, Primitive.all.length, 0⟩
      (Memory.opened names) :=
    ⟨stores, nofun, rfl, nofun⟩
  have keeps : Session.Keeps blocks 0 (.start (Vocabulary.standard Store.empty).1)
      (Vocabulary.standard Store.empty).2 (Memory.opened names) :=
    ⟨rfl, _, [], ⟨[], [], []⟩, _, Meaning.memories_empty rfl rfl trivial, .nil, ready⟩
  exact ⟨⟨rfl, keeps⟩, .start, rfl, nofun⟩

end Lines

end Session

/-! ### The program at once -/

/-- The value of a program is that of its statements. -/
theorem evaluate_of_evaluateAll {source : String} {block : Block} {program : Program}
    {value' : Value} {memory' : Memory Lexical} (reads : Block.parse source = .ok block)
    (compiles : block.compile (.standardFrom 0) [] = .ok program)
    (evaluated : (Statement.evaluateAll ⟨0, [], .standardFrom 0, defaultCallLimit⟩
      block.statements).perform (Memory.opened block.declares) = (.ok value', memory')) :
    ∃ value, ((evaluate source).perform Store.empty).1 = .ok value ∧
      value.anonymous = value'.anonymous := by
  obtain ⟨machine, _, _, _, _, _, loaded, made⟩ :=
    Block.compile_machine compiles defaultCallLimit
  have begins : compiled.memories ⟨[], [], []⟩ (Vocabulary.standard Store.empty).2
      ⟨⟨#[], #[]⟩, Primitive.all.length, 0⟩ := Meaning.memories_empty rfl rfl trivial
  have rows : Rows compiled.Values ⟨[], [], []⟩ #[] #[] := .nil
  obtain ⟨V, _, _, outcomes⟩ :=
    Meaning.Ends.run made begins (Meaning.Vocabularies.standardFrom _ 0) rows
  have ended : (block.evaluate (.standardFrom 0) [] defaultCallLimit #[]).perform
      ⟨⟨#[], #[]⟩, Primitive.all.length, 0⟩ = (.ok (value', 0), memory') := by
    rw [Block.evaluate, if_neg (by simp)]
    refine (Action.bind_of_ok rfl).trans ?_
    exact Action.bind_of_ok evaluated
  have runs : ((evaluate source).perform Store.empty).1 = Except.map Prod.fst
      ((machine.run #[]).perform (Vocabulary.standard Store.empty).2).1 :=
    evaluate_of_compiled reads compiles loaded
  rw [ended] at outcomes
  rw [runs]
  generalize ((machine.run #[]).perform (Vocabulary.standard Store.empty).2).1 = outcome at outcomes
  cases outcomes with
  | ok related => exact ⟨_, rfl, related.1.anonymous⟩

/-- A program that is not compiled has no value. -/
theorem evaluate_of_refused {source : String} {block : Block} {failure : Failure}
    (reads : Block.parse source = .ok block)
    (refuses : block.compile (.standardFrom 0) [] = .error failure) :
    ((evaluate source).perform Store.empty).1 = .error failure := by
  have refuses : block.compile (.standardFrom Store.empty.nextStamp) [] = .error failure := refuses
  rw [evaluate_of_parsed reads, refuses]
  exact congrArg Prod.fst (Action.bind_of_error rfl)

/-! ### Lines and programs -/

section Trees

variable {lines : List String}

theorem Block.ofLines_eq {index : Nat} {line : String} (isLine : lines[index]? = some line) :
    Block.ofLines lines index = Block.ofLine line := by
  rw [ofLines, isLine, Option.map_some, Option.getD_some]

theorem Block.ofLines_of_le {index : Nat} (beyond : lines.length ≤ index) :
    Block.ofLines lines index = .mk [] := by
  rw [ofLines, List.getElem?_eq_none beyond]
  rfl

theorem Block.isStraight_ofLines (straight : ∀ line ∈ lines, (Block.ofLine line).IsStraight)
    (index : Nat) : (Block.ofLines lines index).IsStraight := by
  rcases Nat.lt_or_ge index lines.length with inside | beyond
  · rw [ofLines_eq (List.getElem?_eq_getElem inside)]
    exact straight _ (List.getElem_mem inside)
  · rw [ofLines_of_le beyond]
    exact nofun

theorem Block.independent_ofLines
    (independent : lines.Pairwise fun first second =>
      (Block.ofLine first).Independent (Block.ofLine second)) {earlier later : Nat}
    (before : earlier < later) :
    (Block.ofLines lines earlier).Independent (Block.ofLines lines later) := by
  rcases Nat.lt_or_ge later lines.length with inside | beyond
  · rw [ofLines_eq (List.getElem?_eq_getElem inside),
      ofLines_eq (List.getElem?_eq_getElem (before.trans inside))]
    exact List.pairwise_iff_getElem.1 independent _ _ _ _ before
  · rw [ofLines_of_le beyond]
    exact fun _ _ => nofun

theorem Block.declares_ofLines (lines : List String) (index : Nat) :
    (Block.ofLines lines index).declares ⊆ declaredBefore (Block.ofLines lines) lines.length := by
  rcases Nat.lt_or_ge index lines.length with inside | beyond
  · exact fun name member => List.mem_flatMap.2 ⟨index, List.mem_range.2 inside, member⟩
  · rw [ofLines_of_le beyond]
    exact nofun

end Trees

namespace Session

section Joining

variable {session : Session} {memory : Store} {line : String} {lines more : List String}

theorem succeeds_append : session.Succeeds (lines ++ more) memory ↔
    session.Succeeds lines memory ∧
      (session.through lines memory).1.Succeeds more (session.through lines memory).2 := by
  induction lines generalizing session memory with
  | nil => exact (true_and _).symm ▸ Iff.rfl
  | cons line lines inductionHypothesis =>
      rw [List.cons_append, Succeeds, Succeeds, through, inductionHypothesis, and_assoc, and_assoc]

/-- Lines that succeed can be read. -/
theorem Succeeds.parse (succeeds : session.Succeeds lines memory) :
    ∀ line ∈ lines, Block.parse (Text.trim line) = .ok (Block.ofLine line) := by
  induction lines generalizing session memory with
  | nil => nofun
  | cons line lines inductionHypothesis =>
      obtain ⟨noCommand, succeeds, later⟩ := succeeds
      refine List.forall_mem_cons.2 ⟨?_, inductionHypothesis later⟩
      by_cases blank : Text.trim line = ""
      · rw [Block.ofLine, blank, Block.parse_empty]
      · obtain ⟨_, _, _, ended⟩ := exists_success (isEvaluated blank noCommand) succeeds
        obtain ⟨block, _, _, leaves⟩ := exists_leaves ended
        rw [Block.ofLine, leaves.reads]

theorem Succeeds.parse_joined (succeeds : session.Succeeds lines memory) (some : lines ≠ []) :
    ∃ offsets, Block.parse (Text.joined lines) =
      .ok (.mk (joinedBefore (Block.ofLines lines) offsets lines.length)) := by
  have reads (index : Nat) (line : String) (isLine : (lines.map Text.trim)[index]? = .some line) :
      Block.parse line = .ok (Block.ofLines lines index) := by
    rw [List.getElem?_map] at isLine
    obtain ⟨input, isInput, rfl⟩ := Option.map_eq_some_iff.1 isLine
    rw [Block.ofLines_eq isInput]
    exact succeeds.parse input (List.mem_of_getElem? isInput)
  have joined := Block.parse_joined (mt List.map_eq_nil_iff.1 some) reads
  rwa [List.length_map] at joined

end Joining

/-- Where no line fails, the last line has a statement, no line has a guard at its top level, and
no function of a line has to do with a variable that a later line mentions, unless neither updates
it, the value that is shown of the last line is that of the program which the lines are together.
That is, unless this program is too large for the compiler. -/
theorem value_joined {earlier : List String} {last : String}
    (succeeds : (start (Vocabulary.standard Store.empty).1).Succeeds (earlier ++ [last])
      (Vocabulary.standard Store.empty).2)
    (straight : ∀ line ∈ earlier ++ [last], (Block.ofLine line).IsStraight)
    (independent : (earlier ++ [last]).Pairwise fun first second =>
      (Block.ofLine first).Independent (Block.ofLine second))
    (filled : (Block.ofLine last).statements ≠ []) :
    let before := (start (Vocabulary.standard Store.empty).1).through earlier
      (Vocabulary.standard Store.empty).2
    let outcome := ((evaluate (Text.joined (earlier ++ [last]))).perform Store.empty).1
    ∃ value next after text,
      (before.1.advance (Text.trim last)).perform before.2 = (.ok (value, next), after) ∧
      (value.text : Run String) = pure text ∧
      before.1.respond last before.2 = (next.reply (text ++ "\n"), after) ∧
      ((∃ failure operand, outcome = .error failure ∧ failure.fault = .operandTooLarge operand ∧
          operandLimit ≤ operand) ∨
        ∃ value', outcome = .ok value' ∧ value.anonymous = value'.anonymous ∧
          (value.IsData → (value'.text : Run String) = pure text)) := by
  intro before outcome
  obtain ⟨offsets, reads⟩ := succeeds.parse_joined (List.concat_ne_nil last earlier)
  have straight := Block.isStraight_ofLines straight
  have independent {first second : Nat} := @Block.independent_ofLines _ independent first second
  have length : (earlier ++ [last]).length = 0 + earlier.length + 1 := by
    rw [List.length_append, List.length_singleton, Nat.zero_add]
  have trees (index : Nat) (line : String) (isLine : earlier[index]? = some line) :
      Block.ofLines (earlier ++ [last]) (0 + index) = Block.ofLine line := by
    have inside := (List.getElem?_eq_some_iff.1 isLine).1
    rw [Nat.zero_add]
    exact Block.ofLines_eq ((List.getElem?_append_left inside).trans isLine)
  have tree : Block.ofLines (earlier ++ [last]) (0 + earlier.length) = Block.ofLine last := by
    rw [Nat.zero_add]
    exact Block.ofLines_eq List.getElem?_concat_length
  obtain ⟨succeeds, noCommand, ends, _⟩ := succeeds_append.1 succeeds
  have visible : Text.trim last ≠ "" := fun blank =>
    filled (congrArg Block.statements (Block.ofLine_of_blank blank))
  -- The program begins as the first line does, and keeps step to the end of the last one.
  have begins := Agrees.start offsets (Block.declares_ofLines (earlier ++ [last]))
  obtain ⟨_, _, between⟩ := begins.through independent straight trees succeeds
  obtain ⟨value, next, after, text, value'', memory'', ended, texts, responds, whole, same⟩ :=
    between.succ independent straight tree (isEvaluated visible noCommand) ends
  refine ⟨value, next, after, text, ended, texts, responds, ?_⟩
  have wellFormed := Block.IsWellFormed.joined offsets straight whole.wellFormed
  have evaluated := whole.evaluated
  rw [← length] at wellFormed evaluated
  obtain ⟨program, compiles⟩ | ⟨failure, operand, refuses, tooLarge⟩ := wellFormed.compile
  · rw [← Block.declares_joined] at evaluated
    obtain ⟨value', isValue, same'⟩ := evaluate_of_evaluateAll reads compiles evaluated
    have alike := (same (tree ▸ filled)).trans same'.symm
    exact .inr ⟨value', isValue, alike, fun isData => (isData.text alike).symm.trans texts⟩
  · exact .inl ⟨failure, operand, evaluate_of_refused reads refuses, tooLarge⟩

/-- A function that an earlier line made reads a variable that a line before that one defined. -/
theorem value_joined_function :
    let session := start (Vocabulary.standard Store.empty).1
    let memory := (Vocabulary.standard Store.empty).2
    let lines := ["a ← 'b'", "", "Get ← \x7ba\x7d"]
    session.Succeeds (lines ++ ["Get 'c'"]) memory ∧
      ∃ (value value' : Value) (text : String), (value.text : Run String) = pure text ∧
        ((session.through lines memory).1.respond "Get 'c'" (session.through lines memory).2).1.text =
          text ++ "\n" ∧
        ((evaluate (Text.joined (lines ++ ["Get 'c'"]))).perform Store.empty).1 = .ok value' ∧
        value.anonymous = value'.anonymous := by
  intro session memory lines
  have succeeds : session.Succeeds (lines ++ ["Get 'c'"]) memory := by decide +kernel
  obtain ⟨value, next, after, text, _, texts, responds, ⟨failure, _, fails, _⟩ | ⟨value', isValue, same, _⟩⟩ :=
    value_joined succeeds (by decide +kernel) (by decide +kernel) (by decide +kernel)
  · have isOk : ((evaluate (Text.joined (lines ++ ["Get 'c'"]))).perform Store.empty).1.isOk := by
      decide +kernel
    rw [fails] at isOk
    cases isOk
  · exact ⟨succeeds, value, value', text, texts, by rw [responds]; rfl, isValue, same⟩

/-- What a function of an earlier line updates is not seen in the lines after. A line without
statements is a program of its own, and functions are numbered in the program they stand in. -/
theorem value_not_joined :
    let session := start (Vocabulary.standard Store.empty).1
    let memory := (Vocabulary.standard Store.empty).2
    let shown (lines : List String) (last : String) : String :=
      ((session.through lines memory).1.respond last (session.through lines memory).2).1.text
    let whole (lines : List String) : Option String :=
      ((evaluate (Text.joined lines) >>= Value.text).perform Store.empty).1.toOption
    let lines := ["n ← 'a'", "Set ← \x7bn ↩ 𝕩\x7d", "Set 'b'"]
    session.Succeeds (lines ++ ["n"]) memory ∧
      (∀ line ∈ lines ++ ["n"], (Block.ofLine line).IsStraight) ∧
      shown lines "n" = "'a'\n" ∧ whole (lines ++ ["n"]) = some "'b'" ∧
      shown ["'a'"] "# nothing" = "⟨⟩\n" ∧ whole ["'a'", "# nothing"] = some "'a'" ∧
      shown ["F ← \x7b𝕩\x7d"] "\x7b𝕩\x7d" = "\x7bblock 1\x7d\n" ∧
      whole ["F ← \x7b𝕩\x7d", "\x7b𝕩\x7d"] = some "\x7bblock 2\x7d" := by
  decide +kernel

end Session

end PointFree
