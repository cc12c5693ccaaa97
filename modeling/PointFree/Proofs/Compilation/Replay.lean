import Mathlib.Algebra.GroupWithZero.Nat
import PointFree.Program.Loading
import PointFree.Proofs.Compilation.Lowering

/-!
Contract: lowered code is loaded as the node it was lowered to.

The code of an expression, replayed on any stack, leaves its node on the stack and
nothing else, and the code of a block leaves nothing at all. So no instruction of a
lowered block is refused.
-/

namespace PointFree

/-- The instructions of a block as they are read. -/
def Reading.ofList : (position : Nat) → List Instruction → Reading
  | position, [] => .broken position .truncated
  | position, .finish :: _ => .finish position
  | position, instruction :: rest =>
      .next position instruction (Reading.ofList (position + instruction.width) rest)

/-- Number of words. -/
def codeWidth (code : List Instruction) : Nat :=
  (code.map Instruction.width).sum

theorem codeWidth_append (first second : List Instruction) :
    codeWidth (first ++ second) = codeWidth first + codeWidth second := by
  rw [codeWidth, codeWidth, codeWidth, List.map_append, List.sum_append]

theorem codeWidth_singleton (instruction : Instruction) :
    codeWidth [instruction] = instruction.width :=
  Nat.add_zero _

/-- The statements that the instructions from a position on belong to. -/
def Spanned (locate : Nat → Option Span) : (position : Nat) → List Marked → Prop
  | _, [] => True
  | position, placed :: rest =>
      locate position = placed.2 ∧ Spanned locate (position + placed.1.width) rest

theorem Spanned.append {locate : Nat → Option Span} {first second : List Marked} {position : Nat} :
    Spanned locate position (first ++ second) ↔
      Spanned locate position first ∧
        Spanned locate (position + codeWidth (first.map Prod.fst)) second := by
  induction first generalizing position with
  | nil =>
      rw [List.nil_append, List.map_nil]
      exact (iff_of_eq (true_and _)).symm
  | cons placed rest inductionHypothesis =>
      rw [List.cons_append, Spanned, Spanned, inductionHypothesis, and_assoc, List.map_cons,
        codeWidth, codeWidth, List.map_cons, List.sum_cons, Nat.add_assoc]

namespace Loading

variable {surroundings : Surroundings} {locate : Nat → Option Span} {position : Nat}
variable {rest : List Instruction} {loading : Loading} {stack : List Entry}

theorem popValues_eq_ok (after : Nat) (nodes found : List Node) (stack : List Entry) :
    popValues after nodes.length found (nodes.map Entry.value ++ stack) =
      .ok (nodes.reverse ++ found, stack) := by
  induction nodes generalizing found with
  | nil => rfl
  | cons node nodes inductionHypothesis =>
      rw [List.reverse_cons, List.append_assoc]
      exact inductionHypothesis (node :: found)

theorem popPlaces_eq_ok (after : Nat) (places found : List Place) (stack : List Entry) :
    popPlaces after places.length found (places.map Entry.place ++ stack) =
      .ok (places.reverse ++ found, stack) := by
  induction places generalizing found with
  | nil => rfl
  | cons place places inductionHypothesis =>
      rw [List.reverse_cons, List.append_assoc]
      exact inductionHypothesis (place :: found)

/-- One instruction that does not return is replayed, and then the rest. -/
theorem replayAll_cons {instruction : Instruction} {replayed : Loading}
    (goes : instruction ≠ .finish)
    (step : loading.replay surroundings position (locate position) instruction = .ok replayed) :
    replayAll surroundings locate (Reading.ofList position (instruction :: rest)) loading =
      replayAll surroundings locate (Reading.ofList (position + instruction.width) rest)
        replayed := by
  have next : Reading.ofList position (instruction :: rest) =
      .next position instruction (Reading.ofList (position + instruction.width) rest) := by
    cases instruction with
    | finish => exact absurd rfl goes
    | _ => rfl
  rw [next, replayAll, step]
  rfl

/-- Code that leaves these entries on the stack, whatever it stands on. -/
def Pushes (surroundings : Surroundings) (locate : Nat → Option Span) (code : List Instruction)
    (entries : List Entry) : Prop :=
  ∀ (position : Nat) (rest : List Instruction) (loading : Loading),
    replayAll surroundings locate (Reading.ofList position (code ++ rest)) loading =
      replayAll surroundings locate (Reading.ofList (position + codeWidth code) rest)
        { loading with stack := entries ++ loading.stack }

theorem Pushes.append {first second : List Instruction} {firstEntries secondEntries : List Entry}
    (firsts : Pushes surroundings locate first firstEntries)
    (seconds : Pushes surroundings locate second secondEntries) :
    Pushes surroundings locate (first ++ second) (secondEntries ++ firstEntries) := by
  intro position rest loading
  rw [List.append_assoc, firsts, seconds, codeWidth_append, ← Nat.add_assoc, List.append_assoc]

/-- An instruction that takes some entries off the stack and leaves others. -/
theorem Pushes.concat {code : List Instruction} {instruction : Instruction}
    {entries results : List Entry} (pushes : Pushes surroundings locate code entries)
    (goes : instruction ≠ .finish)
    (step : ∀ (position : Nat) (span : Option Span) (loading : Loading) (stack : List Entry),
      { loading with stack := entries ++ stack }.replay surroundings position span instruction =
        .ok { loading with stack := results ++ stack }) :
    Pushes surroundings locate (code ++ [instruction]) results := by
  intro position rest loading
  rw [List.append_assoc, pushes, List.singleton_append,
    replayAll_cons goes (step _ _ loading loading.stack), codeWidth_append, codeWidth_singleton,
    Nat.add_assoc]

theorem Pushes.single {instruction : Instruction} {results : List Entry}
    (goes : instruction ≠ .finish)
    (step : ∀ (position : Nat) (span : Option Span) (loading : Loading),
      loading.replay surroundings position span instruction =
        .ok { loading with stack := results ++ loading.stack }) :
    Pushes surroundings locate [instruction] results := by
  intro position rest loading
  rw [codeWidth_singleton]
  exact replayAll_cons goes (step _ _ _)

end Loading

/-- What the code of a site refers to is there when the code is loaded. -/
structure Site.Provides (site : Site) (surroundings : Surroundings) : Prop where
  constants : surroundings.constants = site.constants
  isLoaded : ∀ {number : Nat} {body : Block},
    site.closes number body → surroundings.isLoaded number = true

section Lowered

open Loading

variable {site : Site} {scope : Scope} {surroundings : Surroundings} {locate : Nat → Option Span}

theorem Site.Provides.push {place : Nat} {value : Value} (provides : site.Provides surroundings)
    (found : site.constants[place]? = some value) :
    Pushes surroundings locate [.push place] [.value (.constant value)] := by
  refine Pushes.single nofun fun position span loading => ?_
  rw [replay, provides.constants, found]
  rfl

theorem Expression.LowersAll.length_eq : ∀ {items : List Expression} {code : List Instruction}
    {nodes : List Node}, Expression.LowersAll site scope items code nodes →
    items.length = nodes.length
  | _, _, _, .nil => rfl
  | _, _, _, .cons _ rest => congrArg (· + 1) rest.length_eq

theorem Target.LowersAll.length_eq {scopes : List Scope} : ∀ {targets : List Target}
    {code : List Instruction} {places : List Place}, Target.LowersAll scopes targets code places →
    targets.length = places.length
  | _, _, _, .nil => rfl
  | _, _, _, .cons _ rest => congrArg (· + 1) rest.length_eq

mutual

theorem Expression.Lowers.pushes (provides : site.Provides surroundings) :
    ∀ {expression : Expression} {code : List Instruction} {node : Node},
    expression.Lowers site scope code node → Pushes surroundings locate code [.value node]
  | _, _, _, .number found => provides.push found
  | _, _, _, .character found => provides.push found
  | _, _, _, .string found => provides.push found
  | _, _, _, .name _ => .single nofun fun _ _ _ => rfl
  | _, _, _, .primitive _ found => provides.push found
  | _, _, _, .implicit _ => .single nofun fun _ _ _ => rfl
  | .list items, _, .list nodes, .list lowers => by
      refine (lowers.pushes provides).concat nofun fun position span loading stack => ?_
      have popped := popValues_eq_ok (position + 2) nodes.reverse [] stack
      rw [List.length_reverse, ← lowers.length_eq, List.reverse_reverse, List.append_nil] at popped
      exact Outcome.bind_eq_ok.2 ⟨_, popped, rfl⟩
  | _, _, _, .call right function =>
      ((right.pushes provides).append (function.pushes provides)).concat nofun
        fun _ _ _ _ => rfl
  | _, _, _, .callBoth right function left =>
      (((right.pushes provides).append (function.pushes provides)).append
        (left.pushes provides)).concat nofun fun _ _ _ _ => rfl
  | _, _, _, .modifyOne _ operand => by
      refine (operand.pushes provides).concat nofun fun _ _ _ _ => ?_
      rw [replay, OneModifier.ofCode?_code]
      rfl
  | _, _, _, .modifyTwo _ right left => by
      refine ((right.pushes provides).append (left.pushes provides)).concat nofun
        fun _ _ _ _ => ?_
      rw [replay, TwoModifier.ofCode?_code]
      rfl
  | _, _, _, .atop right left =>
      ((right.pushes provides).append (left.pushes provides)).concat nofun
        fun _ _ _ _ => rfl
  | _, _, _, .fork right middle left =>
      (((right.pushes provides).append (middle.pushes provides)).append
        (left.pushes provides)).concat nofun fun _ _ _ _ => rfl
  | _, _, _, .block numbered => by
      refine .single nofun fun _ _ _ => ?_
      rw [replay, if_pos (provides.isLoaded numbered)]
      rfl

theorem Expression.LowersAll.pushes (provides : site.Provides surroundings) :
    ∀ {items : List Expression} {code : List Instruction} {nodes : List Node},
    Expression.LowersAll site scope items code nodes →
    Pushes surroundings locate code (nodes.reverse.map Entry.value)
  | _, _, _, .nil => fun _ _ _ => rfl
  | _, _, _, .cons item rest => by
      rw [List.reverse_cons, List.map_append]
      exact (item.pushes provides).append (rest.pushes provides)

end

mutual

theorem Target.Lowers.pushes {scopes : List Scope} : ∀ {target : Target}
    {code : List Instruction} {place : Place}, target.Lowers scopes code place →
    Pushes surroundings locate code [.place place]
  | _, _, _, .name _ => .single nofun fun _ _ _ => rfl
  | .list targets, _, .list places, .list lowers => by
      refine lowers.pushes.concat nofun fun position span loading stack => ?_
      have popped := popPlaces_eq_ok (position + 2) places.reverse [] stack
      rw [List.length_reverse, ← lowers.length_eq, List.reverse_reverse, List.append_nil] at popped
      exact Outcome.bind_eq_ok.2 ⟨_, popped, rfl⟩

theorem Target.LowersAll.pushes {scopes : List Scope} : ∀ {targets : List Target}
    {code : List Instruction} {places : List Place}, Target.LowersAll scopes targets code places →
    Pushes surroundings locate code (places.reverse.map Entry.place)
  | _, _, _, .nil => fun _ _ _ => rfl
  | _, _, _, .cons target rest => by
      rw [List.reverse_cons, List.map_append]
      exact target.pushes.append rest.pushes

end

theorem Clause.Lowers.pushes (provides : site.Provides surroundings) {clause : Clause}
    {extended : Scope} {code : List Instruction} {node : Node}
    (lowers : clause.Lowers site scope extended code node) :
    Pushes surroundings locate code [.value node] := by
  cases lowers with
  | expression result => exact result.pushes provides
  | define value _ target =>
      exact ((value.pushes provides).append target.pushes).concat nofun fun _ _ _ _ => rfl
  | assign value target =>
      exact ((value.pushes provides).append target.pushes).concat nofun fun _ _ _ _ => rfl
  | update function target =>
      exact ((function.pushes provides).append target.pushes).concat nofun fun _ _ _ _ => rfl
  | updateWith argument function target =>
      exact (((argument.pushes provides).append (function.pushes provides)).append
        target.pushes).concat nofun fun _ _ _ _ => rfl

theorem map_placedAt (span : Option Span) (code : List Instruction) :
    (placedAt span code).map Prod.fst = code := by
  rw [placedAt, List.map_map]
  exact List.map_id code

theorem Spanned.placedAt_append {span : Option Span} {first second : List Instruction}
    {position : Nat} :
    Spanned locate position (placedAt span (first ++ second)) ↔
      Spanned locate position (placedAt span first) ∧
        Spanned locate (position + codeWidth first) (placedAt span second) := by
  rw [placedAt, List.map_append, Spanned.append, ← placedAt, map_placedAt]
  exact Iff.rfl

theorem Spanned.last {span : Option Span} {code : List Instruction} {instruction : Instruction}
    {position : Nat} (spanned : Spanned locate position (placedAt span (code ++ [instruction]))) :
    locate (position + codeWidth code) = span :=
  (Spanned.placedAt_append.1 spanned).2.1

theorem replay_discard (position : Nat) (span : Option Span) (node : Node) (before : List Step) :
    replay surroundings position span ⟨[.value node], none, before⟩ .discard =
      .ok ⟨[], none, .evaluate node span :: before⟩ :=
  rfl

theorem replay_test (position : Nat) (span : Option Span) (node : Node) (before : List Step) :
    replay surroundings position span ⟨[.value node], none, before⟩ .test =
      .ok ⟨[], some node, before⟩ :=
  rfl

theorem replay_fallback (position : Nat) (span : Option Span) (test node : Node)
    (before : List Step) :
    replay surroundings position span ⟨[.value node], some test, before⟩ .fallback =
      .ok ⟨[], none, .guard test node span :: before⟩ :=
  rfl

/-- The statements of a lowered block are loaded one after another. -/
theorem Statement.Lowers.replayAll_eq (provides : site.Provides surroundings)
    {statements : List Statement} {whole : Scope} {placed : List Marked} {steps : List Step}
    (lowers : Statement.Lowers site scope statements whole placed steps) {position : Nat}
    (spanned : Spanned locate position placed) (before : List Step) :
    replayAll surroundings locate (Reading.ofList position (placed.map Prod.fst))
      ⟨[], none, before⟩ = .ok (before.reverse ++ steps) := by
  induction lowers generalizing position before with
  | @finish scope extended clause span code node lowers =>
      rw [map_placedAt, lowers.pushes provides]
      show Except.ok (Step.finish node (locate _) :: before).reverse = _
      rw [spanned.last, List.reverse_cons]
  | @evaluate scope extended whole clause span rest code placed node steps lowers _
      inductionHypothesis =>
      obtain ⟨here, later⟩ := Spanned.append.1 spanned
      rw [map_placedAt, codeWidth_append, codeWidth_singleton, ← Nat.add_assoc] at later
      rw [List.map_append, map_placedAt, List.append_assoc, lowers.pushes provides,
        List.singleton_append]
      refine (replayAll_cons (by nofun) (replay_discard _ _ node before)).trans ?_
      rw [inductionHypothesis later, here.last, List.reverse_cons, List.append_assoc]
      rfl
  | @guard scope whole test fallback span rest testCode fallbackCode placed testNode fallbackNode
      steps testLowers fallbackLowers _ inductionHypothesis =>
      obtain ⟨here, later⟩ := Spanned.append.1 spanned
      rw [map_placedAt, codeWidth_append, codeWidth_singleton, ← Nat.add_assoc] at later
      have spanned := here.last
      rw [codeWidth_append, codeWidth_append, codeWidth_singleton, ← Nat.add_assoc,
        ← Nat.add_assoc] at later spanned
      rw [List.map_append, map_placedAt, List.append_assoc, List.append_assoc, List.append_assoc,
        testLowers.pushes provides, List.singleton_append]
      refine (replayAll_cons (by nofun) (replay_test _ _ testNode before)).trans ?_
      rw [fallbackLowers.pushes provides, List.singleton_append]
      refine (replayAll_cons (by nofun) (replay_fallback _ _ testNode fallbackNode before)).trans ?_
      rw [inductionHypothesis later, spanned, List.reverse_cons, List.append_assoc]
      rfl

theorem Block.Lowers.replayAll_eq (provides : site.Provides surroundings) {block : Block}
    {whole : Scope} {placed : List Marked} {steps : List Step}
    (lowers : block.Lowers site scope whole placed steps) {position : Nat}
    (spanned : Spanned locate position placed) :
    replayAll surroundings locate (Reading.ofList position (placed.map Prod.fst)) .start =
      .ok steps := by
  cases lowers with
  | empty found =>
      refine (provides.push found position [.finish] .start).trans ?_
      show Except.ok [Step.finish (.constant .nil) (locate (position + 2))] = _
      rw [show locate (position + 2) = none from spanned.2.1]
  | statements lowers => exact lowers.replayAll_eq provides spanned []

end Lowered

end PointFree
