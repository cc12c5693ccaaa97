import PointFree.Proofs.Comparison.Limits
import PointFree.Proofs.Placing.Compiling
import PointFree.Session

/-!
Contract: every failure of an evaluation has a place.

The statements of a program are noted beside its code, and a routine takes the places of its
steps from there. A failure takes the place of the innermost step that it passes. So a run that
has met nothing of other programs fails at statements of its own, and it fails somewhere, since
the outermost steps are those of the whole program.

The place begins at a character of the source or at its end. A failure that is not one of
reading has the place of a statement of the program. What is left are programs so large that
the pool has no number for the empty list of a body without statements.
-/

namespace PointFree

open Correspondence Stepping Outcome

/-! ### The notes beside the code -/

section Locations

variable {vocabulary : Vocabulary} {whole : Block} {around : List Block} {task : Task}

/-- A note that is empty or has the place of a statement. -/
def Block.Notes (whole : Block) (span : Option Span) : Prop :=
  span = none ∨ whole.Places span

theorem Laid.notes {holds : Option Span → Prop} {located : List Located} {before after : Assembly}
    {placed : List Marked} (laid : Laid located before after placed)
    (known : ∀ span ∈ before.locations, holds span) (new : ∀ entry ∈ located, holds entry.2) :
    ∀ span ∈ after.locations, holds span := by
  intro span member
  rw [← Array.mem_toList_iff, laid.locations] at member
  rcases List.mem_append.1 member with old | here
  · exact known span (Array.mem_toList_iff.1 old)
  · obtain ⟨entry, isPlaced, isSpan⟩ := List.mem_flatMap.1 here
    cases List.eq_of_mem_replicate isSpan
    obtain ⟨emitted, isEmitted, _, same⟩ := exists_of_forall₂ laid.fills.flip isPlaced
    exact same ▸ new emitted isEmitted

theorem Assembly.notes_of_perform {assembly after : Assembly} {new : List Task} {scope : Scope}
    (performed : assembly.perform vocabulary task = .ok (after, new, scope))
    (nests : whole.Nests around task.body) (known : ∀ span ∈ assembly.locations, whole.Notes span) :
    ∀ span ∈ after.locations, whole.Notes span := by
  obtain ⟨located, between, bodies, emits, lays, rfl, _⟩ := perform_eq_ok performed
  obtain ⟨_, laid, _⟩ := Laid.foldlM lays
  refine laid.notes known fun entry member => ?_
  exact (Block.span_of_emit emits member).imp_right fun placed => ⟨around, task.body, nests, placed⟩

theorem Assembly.notes_of_performAll {budget : Nat} {assembly final : Assembly}
    {waiting : List Task} (performed : performAll vocabulary budget assembly waiting = .ok final)
    (nested : ∀ task ∈ waiting, ∃ around, whole.Nests around task.body)
    (known : ∀ span ∈ assembly.locations, whole.Notes span) :
    ∀ span ∈ final.locations, whole.Notes span := by
  induction budget generalizing assembly waiting with
  | zero =>
      cases performed
      exact known
  | succ budget inductionHypothesis =>
      cases waiting with
      | nil =>
          cases performed
          exact known
      | cons task waiting =>
          obtain ⟨⟨around, nests⟩, later⟩ := List.forall_mem_cons.1 nested
          obtain ⟨⟨after, new, scope⟩, first, performed⟩ := Outcome.bind_eq_ok.1 performed
          exact inductionHypothesis performed
            (List.forall_mem_append.2 ⟨later, nests_of_perform first nests⟩)
            (notes_of_perform first nests known)

/-- Beside the code of a program stand the places of its statements. -/
theorem Block.compile_notes {externals : List String} {program : Program}
    (compiled : whole.compile vocabulary externals = .ok program) :
    ∀ span ∈ program.locations, whole.Notes span := by
  obtain ⟨scope, _, compiled⟩ := Outcome.bind_eq_ok.1 compiled
  obtain ⟨⟨after, new, last⟩, first, compiled⟩ := Outcome.bind_eq_ok.1 compiled
  obtain ⟨assembly, performed, done⟩ := Outcome.bind_eq_ok.1 compiled
  cases done
  exact Assembly.notes_of_performAll performed (Assembly.nests_of_perform first .whole)
    (Assembly.notes_of_perform first .whole (by simp [Assembly.start]))

end Locations

/-! ### The places of steps -/

theorem Spanned.exists_eq {locate : Nat → Option Span} {position : Nat} {placed : List Marked}
    (spanned : Spanned locate position placed) {entry : Marked} (member : entry ∈ placed) :
    ∃ position, locate position = entry.2 := by
  induction placed generalizing position with
  | nil => cases member
  | cons first rest inductionHypothesis =>
      rcases List.mem_cons.1 member with rfl | later
      · exact ⟨position, spanned.1⟩
      · exact inductionHypothesis spanned.2 later

section Steps

variable {site : Site} {scope whole : Scope} {placed : List Marked} {steps : List Step}

theorem mem_placedAt_concat (span : Option Span) (code : List Instruction)
    (instruction : Instruction) : (instruction, span) ∈ placedAt span (code ++ [instruction]) :=
  List.mem_map_of_mem (List.mem_append_right _ (.head _))

theorem Statement.Lowers.span_mem {statements : List Statement}
    (lowers : Statement.Lowers site scope statements whole placed steps) {step : Step}
    (member : step ∈ steps) :
    step.span ∈ placed.map Prod.snd ∧ step.span ∈ statements.map Statement.span := by
  induction lowers with
  | finish =>
      cases List.mem_singleton.1 member
      exact ⟨List.mem_map_of_mem (mem_placedAt_concat ..), .head _⟩
  | evaluate _ _ inductionHypothesis | guard _ _ _ inductionHypothesis =>
      rw [List.map_append, List.map_cons]
      rcases List.mem_cons.1 member with rfl | later
      · exact ⟨List.mem_append_left _ (List.mem_map_of_mem (mem_placedAt_concat ..)), .head _⟩
      · obtain ⟨marked, stated⟩ := inductionHypothesis later
        exact ⟨List.mem_append_right _ marked, .tail _ stated⟩

theorem Statement.Lowers.exists_finish {statements : List Statement}
    (lowers : Statement.Lowers site scope statements whole placed steps) :
    ∃ node span, .finish node span ∈ steps := by
  induction lowers with
  | finish => exact ⟨_, _, .head _⟩
  | evaluate _ _ inductionHypothesis | guard _ _ _ inductionHypothesis =>
      obtain ⟨node, span, member⟩ := inductionHypothesis
      exact ⟨node, span, .tail _ member⟩

theorem Block.Lowers.span_mem {block : Block} (lowers : block.Lowers site scope whole placed steps)
    {step : Step} (member : step ∈ steps) : step.span ∈ placed.map Prod.snd := by
  cases lowers with
  | empty =>
      cases List.mem_singleton.1 member
      exact .head _
  | statements lowers => exact (lowers.span_mem member).1

end Steps

/-- The steps of a loaded program have the places of its statements. -/
theorem Machine.IsLoaded.notes {machine : Machine} {program : Program} {vocabulary : Vocabulary}
    {tasks : List Task} {limit : Nat} {whole : Block}
    (loaded : machine.IsLoaded program vocabulary tasks limit)
    (noted : ∀ span ∈ program.locations, whole.Notes span) :
    ∀ routine ∈ machine.top :: machine.others, ∀ step ∈ routine.steps,
      whole.Notes step.span := by
  intro routine member step isStep
  obtain ⟨index, isRoutine⟩ := List.mem_iff_getElem?.1 member
  obtain ⟨entry, task, scope, placed, steps, _, _, holds, rfl⟩ :=
    loaded.routine index routine isRoutine
  obtain ⟨marked, isMarked, same⟩ := List.mem_map.1 (holds.lowers.span_mem isStep)
  obtain ⟨position, located⟩ := holds.spanned.exists_eq isMarked
  rw [← same, ← located, Program.locationAt]
  cases found : program.locations[position]? with
  | none => exact .inl rfl
  | some span => exact noted span (Array.mem_of_getElem? found)

/-! ### Runs -/

/-- A machine run twice in the same way, with failures at some places only. -/
def Comparison.placing (places : Option Span → Prop) : Comparison where
  limits limit limit' := limit = limit'
  depths depth depth' := depth = depth'
  pending := False
  spans span := span = none ∨ places span
  spans_none := .inl rfl
  spans_of_pending := False.elim

theorem Comparison.descends_placing (places : Option Span → Prop) :
    (placing places).Descends (placing places) where
  callable := trivial
  enters := ⟨id, congrArg (· + 1), id, id, id⟩
  leaves := ⟨id, congrArg (· - 1), id, id, id⟩
  refused same counted _ := .inr ⟨same, counted⟩
  admitted same counted below := by
    cases same
    cases counted
    exact ⟨below, id⟩

theorem Written.values {H K : Type} (c : Correspondence H K) (W : c.World) :
    Written fun value => c.Values W value value :=
  ⟨.number, .character, Values.ofString, .array Arrays.nil⟩

variable {machine : Machine} {memory : Store} {globals : Array Value}

/-- A run without anything from outside fails at the places of its steps. -/
theorem Machine.run_fails {places : Option Span → Prop} (stamp depth : Nat)
    (spanned : ∀ routine ∈ machine.top :: machine.others, ∀ step ∈ routine.steps,
      step.span = none ∨ places step.span)
    (known : ∀ routine ∈ machine.top :: machine.others, routine.AllConstants fun value =>
      (Comparison.placing places).correspondence.Values () value value) :
    Outcome.Fails (fun failure => failure.span = none ∨ places failure.span)
      ((machine.run #[]).perform (⟨⟨#[], #[]⟩, stamp, depth⟩ : Store)).1 := by
  have runs : (Comparison.placing places).correspondence.Actions ()
      (Pairs (Comparison.placing places).correspondence.Values
        (Comparison.placing places).correspondence.Same) (machine.run #[]) (machine.run #[]) := by
    refine Comparison.Actions.run (p := Comparison.placing places) trivial rfl
      (List.forall₂_same.2 fun routine member => ?_) nofun
    exact ⟨rfl, rfl, known routine member, spanned routine member⟩
  have memories : (Comparison.placing places).correspondence.memories ()
      (⟨⟨#[], #[]⟩, stamp, depth⟩ : Store) ⟨⟨#[], #[]⟩, stamp, depth⟩ :=
    Comparison.memories_self rfl nofun nofun
  obtain ⟨_, _, _, outcomes⟩ :=
    (Actions.perform (Comparison.descends_placing places).enter runs memories).meets
  generalize ((machine.run #[]).perform (⟨⟨#[], #[]⟩, stamp, depth⟩ : Store)).1 = outcome
    at outcomes ⊢
  cases outcomes with
  | ok => trivial
  | error failures => exact failures.known

section Placed

variable {H α : Type}

/-- Within a statement that has a place a failure has one. -/
theorem Action.located_fails {span : Option Span} (placed : span ≠ none) (action : Action H α)
    (calling : Call H) (memory : Memory H) :
    Outcome.Fails (fun failure => failure.span ≠ none)
      (Action.located span action calling memory).1 := by
  refine Fails.within ?_
  generalize (action calling memory).1 = outcome
  obtain ⟨fault, own⟩ | _ := outcome
  · cases own with
    | none => exact placed
    | some own => exact Option.some_ne_none own
  · trivial

theorem Action.bind_fails {β : Type} {allowed : Failure → Prop} {action : Action H α}
    {next : α → Action H β} {calling : Call H} {memory : Memory H}
    (first : Outcome.Fails allowed (action calling memory).1)
    (rest : ∀ value memory, Outcome.Fails allowed (next value calling memory).1) :
    Outcome.Fails allowed ((action >>= next) calling memory).1 := by
  rcases ended : action calling memory with ⟨failure | value, after⟩
  · rw [Action.bind_of_error ended]
    rw [ended] at first
    exact first
  · rw [Action.bind_of_ok ended]
    exact rest value after

variable [Activations H]

/-- Where every step has a place and one of them returns, every failure has a place. -/
theorem Step.execute_fails (block program frame : Nat) {steps : List Step}
    (placed : ∀ step ∈ steps, step.span ≠ none) (returns : ∃ node span, .finish node span ∈ steps)
    (calling : Call H) (memory : Memory H) :
    Outcome.Fails (fun failure => failure.span ≠ none)
      (Step.execute block program frame steps calling memory).1 := by
  obtain ⟨last, place, returns⟩ := returns
  induction steps generalizing memory with
  | nil => cases returns
  | cons step rest inductionHypothesis =>
      obtain ⟨here, later⟩ := List.forall_mem_cons.1 placed
      cases step with
      | evaluate node span =>
          have onward := (List.mem_cons.1 returns).resolve_left nofun
          exact Action.bind_fails (Action.located_fails here _ calling memory) fun _ memory =>
            inductionHypothesis later memory onward
      | guard test fallback span =>
          have onward := (List.mem_cons.1 returns).resolve_left nofun
          refine Action.bind_fails (Action.located_fails here _ calling memory)
            fun holds memory => ?_
          split
          · exact Action.located_fails here _ calling memory
          · exact inductionHypothesis later memory onward
      | finish node span => exact Action.located_fails here _ calling memory

end Placed

/-- A run that is given as many values as it expects fails in one of its outermost steps. -/
theorem Machine.run_fails_placed {block : Block} {externals : List String} {program : Program}
    {vocabulary : Vocabulary} {tasks : List Task} {limit : Nat} {entry : BlockEntry} {scope : Scope}
    {placed : List Marked} {steps : List Step}
    (made : machine.IsMadeOf block externals program vocabulary tasks limit entry scope placed
      steps) (given : globals.size = externals.length)
    (spanned : ∀ statement ∈ block.statements, statement.span ≠ none) (memory : Store) :
    Outcome.Fails (fun failure => failure.span ≠ none)
      ((machine.run globals).perform memory).1 := by
  have count : globals.size = machine.externals := given.trans made.count.symm
  rw [Machine.run, if_neg (not_not_intro count)]
  have installs (program : List Routine) (calling : Call (Heap (List Routine))) (memory : Store) :
      Outcome.Fails (fun failure => failure.span ≠ none)
        (Installed.install program calling memory).1 := trivial
  refine Action.bind_fails (installs _ _ _) fun program memory => ?_
  have enters (slots : Array (Option Value)) (calling : Call (Heap (List Routine)))
      (memory : Store) : Outcome.Fails (fun failure => failure.span ≠ none)
        (Activations.newFrame slots none calling memory).1 := trivial
  refine Action.bind_fails (enters _ _ _) fun frame memory => ?_
  refine Action.bind_fails ?_ fun _ _ => trivial
  rw [made.top, Routine.run]
  dsimp only
  have lowers := made.holds.lowers
  dsimp only at lowers
  cases lowers with
  | empty => trivial
  | statements lowers =>
      refine Step.execute_fails _ _ _ (fun step member => ?_) lowers.exists_finish _ memory
      obtain ⟨statement, isStatement, same⟩ := List.mem_map.1 (lowers.span_mem member).2
      exact same ▸ spanned statement isStatement

end PointFree

namespace PointFree

open Outcome

theorem Action.perform_lift {α β : Type} (result : α) (next : α → Run β) (memory : Store) :
    ((liftM (.ok result : Outcome α) : Run α) >>= next).perform memory =
      (next result).perform memory :=
  Action.bind_of_ok rfl

/-- A statement of a program that has been read stands at a character of the source. -/
theorem Block.span_of_parse {source : String} {block : Block} (parses : parse source = .ok block)
    {around : List Block} {body : Block} (nests : block.Nests around body) {statement : Statement}
    (member : statement ∈ body.statements) :
    ∃ before rest span, source.toList = before ++ rest ∧ statement.span = some span ∧
      span.start = byteLength before := by
  obtain ⟨before, text, after, split, place⟩ := exists_text parses nests member
  rw [List.append_assoc] at split
  exact ⟨before, text ++ after, _, split, place, rfl⟩

section Evaluating

variable {source : String} {block : Block} {program : Program} {machine : Machine}
variable {failure : Failure} {memory : Store}

theorem evaluate_of_parsed (parses : Block.parse source = .ok block) (memory : Store) :
    (evaluate source).perform memory =
      ((liftM (block.compile (.standardFrom memory.nextStamp) []) : Run Program) >>=
        fun program => do
          let machine ← Machine.load program defaultCallLimit
          let ended ← machine.run #[]
          return ended.1).perform
        { memory with nextStamp := memory.nextStamp + Primitive.all.length } := by
  rw [evaluate, parses, Action.perform_lift]
  exact Action.bind_of_ok rfl

theorem evaluate_of_compiled (parses : Block.parse source = .ok block)
    (compiles : block.compile (.standardFrom memory.nextStamp) [] = .ok program)
    (loaded : Machine.load program defaultCallLimit = .ok machine) :
    ((evaluate source).perform memory).1 =
      Except.map Prod.fst ((machine.run #[]).perform
        { memory with nextStamp := memory.nextStamp + Primitive.all.length }).1 := by
  rw [evaluate_of_parsed parses, compiles, Action.perform_lift, loaded, Action.perform_lift]
  rcases ended : (machine.run #[]).perform
    { memory with nextStamp := memory.nextStamp + Primitive.all.length } with ⟨reason | result, after⟩
  · exact congrArg Prod.fst (Action.bind_of_error ended)
  · exact congrArg Prod.fst (Action.bind_of_ok ended)

end Evaluating

end PointFree
