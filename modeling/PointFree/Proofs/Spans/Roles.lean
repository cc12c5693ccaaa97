import Mathlib.Data.List.Forall2
import Mathlib.Data.List.TakeDrop
import PointFree.Proofs.Acceptance.Wellformed
import PointFree.Proofs.Spans.Bodies
import PointFree.Surface.Reading

/-!
Contract: roles do not depend on places.

Atoms that stand further on in a text are read as the same tree with all spans shifted, or
neither is read. Each function literal in the tree is the reading of a body in the atoms.
-/

namespace PointFree

variable {offset : Nat}

/-! ### Shifts of trees -/

mutual

/-- The expression as it stands further on in a text. -/
def Expression.shift (offset : Nat) : Expression → Expression
  | .list items => .list (Expression.shiftAll offset items)
  | .call function right => .call (function.shift offset) (right.shift offset)
  | .callBoth function left right =>
      .callBoth (function.shift offset) (left.shift offset) (right.shift offset)
  | .modifyOne glyph operand => .modifyOne glyph (operand.shift offset)
  | .modifyTwo glyph left right => .modifyTwo glyph (left.shift offset) (right.shift offset)
  | .atop left right => .atop (left.shift offset) (right.shift offset)
  | .fork left middle right =>
      .fork (left.shift offset) (middle.shift offset) (right.shift offset)
  | .block body => .block (body.shift offset)
  | leaf => leaf
termination_by structural expression => expression

def Expression.shiftAll (offset : Nat) : List Expression → List Expression
  | [] => []
  | item :: items => item.shift offset :: Expression.shiftAll offset items
termination_by structural items => items

def Clause.shift (offset : Nat) : Clause → Clause
  | .expression result => .expression (result.shift offset)
  | .define target value => .define target (value.shift offset)
  | .assign target value => .assign target (value.shift offset)
  | .modify name function none => .modify name (function.shift offset) none
  | .modify name function (some argument) =>
      .modify name (function.shift offset) (some (argument.shift offset))
  | .guard test fallback => .guard (test.shift offset) (fallback.shift offset)
termination_by structural clause => clause

def Statement.shift (offset : Nat) : Statement → Statement
  | .mk clause span => .mk (clause.shift offset) (span.map (Span.shift offset))
termination_by structural statement => statement

def Statement.shiftAll (offset : Nat) : List Statement → List Statement
  | [] => []
  | statement :: statements => statement.shift offset :: Statement.shiftAll offset statements
termination_by structural statements => statements

def Block.shift (offset : Nat) : Block → Block
  | .mk statements => .mk (Statement.shiftAll offset statements)
termination_by structural block => block

end

@[simp] theorem Expression.shiftAll_eq_map (items : List Expression) :
    Expression.shiftAll offset items = items.map (Expression.shift offset) := by
  induction items with
  | nil => rfl
  | cons item items inductionHypothesis =>
      rw [Expression.shiftAll, inductionHypothesis, List.map_cons]

@[simp] theorem Statement.shiftAll_eq_map (statements : List Statement) :
    Statement.shiftAll offset statements = statements.map (Statement.shift offset) := by
  induction statements with
  | nil => rfl
  | cons statement statements inductionHypothesis =>
      rw [Statement.shiftAll, inductionHypothesis, List.map_cons]

/-! ### Two readings -/

/-- Both readings fail, or they give related results. -/
inductive Outcome.Alike {α β : Type} (related : α → β → Prop) : Outcome α → Outcome β → Prop where
  | ok {result : α} {result' : β} :
      related result result' → Alike related (.ok result) (.ok result')
  | error (failure failure' : Failure) : Alike related (.error failure) (.error failure')

namespace Outcome.Alike

variable {α β γ δ : Type} {related : α → β → Prop} {further : γ → δ → Prop}
  {outcome : Outcome α} {outcome' : Outcome β}

theorem refl (outcome : Outcome α) : Alike Eq outcome outcome := by
  cases outcome with
  | ok result => exact .ok rfl
  | error failure => exact .error failure failure

theorem bind (alike : Alike related outcome outcome') {next : α → Outcome γ} {next' : β → Outcome δ}
    (later : ∀ {result result'}, related result result' →
      Alike further (next result) (next' result')) :
    Alike further (outcome >>= next) (outcome' >>= next') := by
  cases alike with
  | ok same => exact later same
  | error failure failure' => exact .error failure failure'

theorem map (alike : Alike related outcome outcome') {change : α → γ} {change' : β → δ}
    (later : ∀ {result result'}, related result result' →
      further (change result) (change' result')) :
    Alike further (outcome.map change) (outcome'.map change') := by
  cases alike with
  | ok same => exact .ok (later same)
  | error failure failure' => exact .error failure failure'

theorem imp (alike : Alike related outcome outcome') {weaker : α → β → Prop}
    (weaken : ∀ {result result'}, related result result' → weaker result result') :
    Alike weaker outcome outcome' := by
  cases alike with
  | ok same => exact .ok (weaken same)
  | error failure failure' => exact .error failure failure'

theorem within (alike : Alike related outcome outcome') (span span' : Option Span) :
    Alike related (outcome.within span) (outcome'.within span') := by
  cases alike with
  | ok same => exact .ok same
  | error failure failure' => exact .error _ _

end Outcome.Alike

/-- Every function literal among the parts is the reading of one of the bodies. -/
def Stem (bodies : List (List RawStatement)) (parts : List Expression) : Prop :=
  ∀ inner, .block inner ∈ parts → ∃ body ∈ bodies, RawStatement.readAll body = .ok inner.statements

section Stem

variable {bodies others : List (List RawStatement)} {parts more : List Expression}

theorem Stem.append (stem : Stem bodies parts) (stem' : Stem bodies more) :
    Stem bodies (parts ++ more) :=
  fun inner member => (List.mem_append.1 member).elim (stem inner) (stem' inner)

theorem Stem.cons {whole : Expression} (stem : Stem bodies parts)
    (other : ∀ inner, whole ≠ .block inner) : Stem bodies (whole :: parts) := by
  intro inner member
  rcases List.mem_cons.1 member with same | later
  · exact absurd same.symm (other inner)
  · exact stem inner later

theorem Stem.nil : Stem bodies [] :=
  nofun

theorem Stem.mono (stem : Stem bodies parts) (subset : bodies ⊆ others) : Stem others parts := by
  intro inner member
  obtain ⟨body, isBody, reads⟩ := stem inner member
  exact ⟨body, subset isBody, reads⟩

end Stem

/-- An expression read where its text begins at the start, and the same further on. -/
structure Expression.Moved (offset : Nat) (bodies : List (List RawStatement))
    (first second : Expression) : Prop where
  shifted : second = first.shift offset
  stem : Stem bodies first.parts

namespace Expression.Moved

variable {bodies others : List (List RawStatement)}
  {function function' left left' middle middle' right right' : Expression}

theorem mono {first second : Expression} (moved : Moved offset bodies first second)
    (subset : bodies ⊆ others) : Moved offset others first second :=
  ⟨moved.shifted, moved.stem.mono subset⟩

theorem list {items items' : List Expression}
    (moved : List.Forall₂ (Moved offset bodies) items items') :
    Moved offset bodies (.list items) (.list items') := by
  have inside : items' = Expression.shiftAll offset items ∧
      Stem bodies (Expression.partsOfAll items) := by
    induction moved with
    | nil => exact ⟨rfl, .nil⟩
    | cons first _ inductionHypothesis =>
        exact ⟨congrArg₂ List.cons first.shifted inductionHypothesis.1,
          first.stem.append inductionHypothesis.2⟩
  exact ⟨congrArg Expression.list inside.1, inside.2.cons nofun⟩

theorem call (moved : Moved offset bodies function function')
    (rights : Moved offset bodies right right') :
    Moved offset bodies (.call function right) (.call function' right') :=
  ⟨congrArg₂ Expression.call moved.shifted rights.shifted,
    (rights.stem.append moved.stem).cons nofun⟩

theorem callBoth (moved : Moved offset bodies function function')
    (lefts : Moved offset bodies left left') (rights : Moved offset bodies right right') :
    Moved offset bodies (.callBoth function left right) (.callBoth function' left' right') := by
  refine ⟨?_, ((rights.stem.append moved.stem).append lefts.stem).cons nofun⟩
  rw [moved.shifted, lefts.shifted, rights.shifted]
  rfl

theorem modifyOne (glyph : Char) (moved : Moved offset bodies right right') :
    Moved offset bodies (.modifyOne glyph right) (.modifyOne glyph right') :=
  ⟨congrArg (Expression.modifyOne glyph) moved.shifted, moved.stem.cons nofun⟩

theorem modifyTwo (glyph : Char) (lefts : Moved offset bodies left left')
    (rights : Moved offset bodies right right') :
    Moved offset bodies (.modifyTwo glyph left right) (.modifyTwo glyph left' right') :=
  ⟨congrArg₂ (Expression.modifyTwo glyph) lefts.shifted rights.shifted,
    (rights.stem.append lefts.stem).cons nofun⟩

theorem atop (lefts : Moved offset bodies left left') (rights : Moved offset bodies right right') :
    Moved offset bodies (.atop left right) (.atop left' right') :=
  ⟨congrArg₂ Expression.atop lefts.shifted rights.shifted,
    (rights.stem.append lefts.stem).cons nofun⟩

theorem fork (lefts : Moved offset bodies left left') (middles : Moved offset bodies middle middle')
    (rights : Moved offset bodies right right') :
    Moved offset bodies (.fork left middle right) (.fork left' middle' right') := by
  refine ⟨?_, ((rights.stem.append middles.stem).append lefts.stem).cons nofun⟩
  rw [lefts.shifted, middles.shifted, rights.shifted]
  rfl

theorem block {body : List RawStatement} {statements : List Statement}
    (reads : RawStatement.readAll body = .ok statements) (member : body ∈ bodies) :
    Moved offset bodies (.block (.mk statements))
      (.block (.mk (statements.map (Statement.shift offset)))) := by
  constructor
  · rw [← Statement.shiftAll_eq_map]
    rfl
  · intro inner same
    cases List.mem_singleton.1 same
    exact ⟨body, member, reads⟩

end Expression.Moved

/-! ### Terms -/

section Terms

variable {bodies others : List (List RawStatement)}

structure Term.Moved (offset : Nat) (bodies : List (List RawStatement)) (first second : Term) :
    Prop where
  expression : Expression.Moved offset bodies first.expression second.expression
  role : second.role = first.role

inductive Item.Moved (offset : Nat) (bodies : List (List RawStatement)) : Item → Item → Prop where
  | term {first second : Term} :
      Term.Moved offset bodies first second → Moved offset bodies (.term first) (.term second)
  | oneModifier (modifier : OneModifier) :
      Moved offset bodies (.oneModifier modifier) (.oneModifier modifier)
  | twoModifier (modifier : TwoModifier) :
      Moved offset bodies (.twoModifier modifier) (.twoModifier modifier)

theorem Item.Moved.mono {first second : Item} (moved : Item.Moved offset bodies first second)
    (subset : bodies ⊆ others) : Item.Moved offset others first second := by
  cases moved with
  | term moved => exact .term ⟨moved.expression.mono subset, moved.role⟩
  | oneModifier modifier => exact .oneModifier modifier
  | twoModifier modifier => exact .twoModifier modifier

theorem bindModifiers_alike {items items' : List Item} {terms terms' : List Term}
    (moved : List.Forall₂ (Item.Moved offset bodies) items items')
    (stack : List.Forall₂ (Term.Moved offset bodies) terms terms') :
    Outcome.Alike (List.Forall₂ (Term.Moved offset bodies)) (bindModifiers items terms)
      (bindModifiers items' terms') := by
  induction items, terms using bindModifiers.induct generalizing items' terms' with
  | case1 terms =>
      cases moved
      exact .ok stack
  | case2 terms term rest inductionHypothesis =>
      obtain _ | ⟨first, later⟩ := moved
      cases first with
      | term first =>
          rw [bindModifiers, bindModifiers]
          exact inductionHypothesis later (.cons first stack)
  | case3 modifier rest =>
      obtain _ | ⟨first, later⟩ := moved
      cases first
      cases stack
      exact .error _ _
  | case4 modifier rest =>
      obtain _ | ⟨first, later⟩ := moved
      cases first
      cases stack
      exact .error _ _
  | case5 modifier rest operand terms inductionHypothesis =>
      obtain _ | ⟨first, later⟩ := moved
      cases first
      obtain _ | ⟨operands, stack⟩ := stack
      rw [bindModifiers, bindModifiers]
      exact inductionHypothesis later
        (.cons ⟨operands.expression.modifyOne modifier.glyph, rfl⟩ stack)
  | case6 modifier right rest left terms inductionHypothesis =>
      obtain _ | ⟨first, later⟩ := moved
      cases first
      obtain _ | ⟨second, later⟩ := later
      cases second with
      | term rights =>
          obtain _ | ⟨lefts, stack⟩ := stack
          rw [bindModifiers, bindModifiers]
          exact inductionHypothesis later
            (.cons ⟨lefts.expression.modifyTwo modifier.glyph rights.expression, rfl⟩ stack)
  | case7 modifier rest left terms noTerm =>
      obtain _ | ⟨first, later⟩ := moved
      cases first
      obtain _ | ⟨lefts, stack⟩ := stack
      cases later with
      | nil => exact .error _ _
      | cons second later =>
          cases second with
          | term => exact absurd rfl (noTerm _ _)
          | oneModifier => exact .error _ _
          | twoModifier => exact .error _ _

theorem application_call (right function : Expression) (rest : List Term)
    (alone : ∀ left beyond, rest = ⟨left, .data⟩ :: beyond → False) :
    application right (⟨function, .function⟩ :: rest) =
      application (.call function right) rest := by
  rw [application]
  exact alone

theorem application_alike {right right' : Expression} {terms terms' : List Term}
    (value : Expression.Moved offset bodies right right')
    (moved : List.Forall₂ (Term.Moved offset bodies) terms terms') :
    Outcome.Alike (Expression.Moved offset bodies) (application right terms)
      (application right' terms') := by
  induction right, terms using application.induct generalizing right' terms' with
  | case1 right =>
      cases moved
      exact .ok value
  | case2 right expression rest =>
      obtain _ | @⟨_, ⟨expression', role'⟩, _, _, ⟨first, same⟩, later⟩ := moved
      cases same
      exact .error _ _
  | case3 right function left rest inductionHypothesis =>
      obtain _ | @⟨_, ⟨function', role'⟩, _, _, ⟨functions, same⟩, later⟩ := moved
      cases same
      obtain _ | @⟨_, ⟨left', role'⟩, _, _, ⟨lefts, same⟩, later⟩ := later
      cases same
      rw [application, application]
      exact inductionHypothesis (functions.callBoth lefts value) later
  | case4 right function rest other inductionHypothesis =>
      obtain _ | @⟨_, ⟨function', role'⟩, _, _, ⟨functions, same⟩, later⟩ := moved
      cases same
      rw [application_call right function _ other]
      cases later with
      | nil =>
          rw [application_call right' function' [] nofun]
          exact inductionHypothesis (functions.call value) .nil
      | @cons left left' _ _ lefts later =>
          have here := inductionHypothesis (functions.call value) (.cons lefts later)
          obtain ⟨left, role⟩ := left
          obtain ⟨left', role'⟩ := left'
          obtain ⟨lefts, same⟩ := lefts
          cases same
          cases role with
          | data => exact absurd rfl (other left _)
          | function =>
              rw [application_call right' function' (⟨left', .function⟩ :: _) nofun]
              exact here

theorem train_alike {right right' : Expression} {terms terms' : List Term}
    (value : Expression.Moved offset bodies right right')
    (moved : List.Forall₂ (Term.Moved offset bodies) terms terms') :
    Outcome.Alike (Expression.Moved offset bodies) (train right terms) (train right' terms') := by
  induction right, terms using train.induct generalizing right' terms' with
  | case1 right =>
      cases moved
      exact .ok value
  | case2 right expression rest =>
      obtain _ | @⟨_, ⟨expression', role'⟩, _, _, ⟨first, same⟩, later⟩ := moved
      cases same
      exact .error _ _
  | case3 right left =>
      obtain _ | @⟨_, ⟨left', role'⟩, _, _, ⟨lefts, same⟩, later⟩ := moved
      cases same
      cases later
      exact .ok (lefts.atop value)
  | case4 right middle left role rest inductionHypothesis =>
      obtain _ | @⟨_, ⟨middle', role'⟩, _, _, ⟨middles, same⟩, later⟩ := moved
      cases same
      obtain _ | @⟨_, ⟨left', role'⟩, _, _, ⟨lefts, same⟩, later⟩ := later
      rw [train, train]
      exact inductionHypothesis (lefts.fork middles value) later

theorem termOfItems_alike {items items' : List Item}
    (moved : List.Forall₂ (Item.Moved offset bodies) items items') :
    Outcome.Alike (Term.Moved offset bodies) (termOfItems items) (termOfItems items') := by
  refine (bindModifiers_alike moved .nil).bind fun {terms terms'} stack => ?_
  cases stack with
  | nil => exact .error _ _
  | @cons right right' rest rest' rights later =>
      obtain ⟨right, role⟩ := right
      obtain ⟨right', role'⟩ := right'
      obtain ⟨value, same⟩ := rights
      cases same
      cases role with
      | data => exact (application_alike value later).map fun moved => ⟨moved, rfl⟩
      | function => exact (train_alike value later).map fun moved => ⟨moved, rfl⟩

end Terms

/-! ### Readings -/

/-- Atoms beside their readings, and the same further on. -/
def Readings.Moved (offset : Nat) (bodies : List (List RawStatement)) :
    Readings → Readings → Prop :=
  List.Forall₂ fun first second => second.1 = first.1.shift offset ∧
    Outcome.Alike (Item.Moved offset bodies) first.2 second.2

namespace Readings.Moved

variable {bodies others : List (List RawStatement)} {readings readings' : Readings}

theorem mono (moved : Moved offset bodies readings readings') (subset : bodies ⊆ others) :
    Moved offset others readings readings' :=
  List.Forall₂.imp (fun _ _ first => ⟨first.1, first.2.imp fun item => item.mono subset⟩) moved

theorem term (moved : Moved offset bodies readings readings') :
    Outcome.Alike (Term.Moved offset bodies) readings.term readings'.term := by
  have items : Outcome.Alike (List.Forall₂ (Item.Moved offset bodies))
      (readings.mapM Prod.snd) (readings'.mapM Prod.snd) := by
    induction moved with
    | nil => exact .ok .nil
    | cons first _ inductionHypothesis =>
        rw [List.mapM_cons, List.mapM_cons]
        exact first.2.bind fun item => inductionHypothesis.bind fun items => .ok (.cons item items)
  exact items.bind termOfItems_alike

theorem expression (moved : Moved offset bodies readings readings') :
    Outcome.Alike (Expression.Moved offset bodies) readings.expression readings'.expression :=
  moved.term.map Term.Moved.expression

/-- Where a division by the atoms is the same, the parts are moved. -/
theorem span (moved : Moved offset bodies readings readings') (test : Atom → Bool)
    (same : ∀ atom, test (atom.shift offset) = test atom) :
    Moved offset bodies (readings.takeWhile fun reading => test reading.1)
        (readings'.takeWhile fun reading => test reading.1) ∧
      Moved offset bodies (readings.dropWhile fun reading => test reading.1)
        (readings'.dropWhile fun reading => test reading.1) := by
  induction moved with
  | nil => exact ⟨.nil, .nil⟩
  | @cons first second rest rest' here later inductionHypothesis =>
      have tests : test second.1 = test first.1 := here.1 ▸ same first.1
      simp only [List.takeWhile_cons, List.dropWhile_cons, tests]
      split
      · exact ⟨.cons here inductionHypothesis.1, inductionHypothesis.2⟩
      · exact ⟨.nil, .cons here later⟩

end Readings.Moved

/-! ### Statements -/

section Statements

variable {bodies others : List (List RawStatement)}

structure Clause.Moved (offset : Nat) (bodies : List (List RawStatement)) (first second : Clause) :
    Prop where
  shifted : second = first.shift offset
  stem : Stem bodies first.parts

mutual

theorem Atom.target_shift (atom : Atom) : (atom.shift offset).target = atom.target := by
  match atom with
  | .list elements =>
      rw [Atom.shift, Atom.target, Atom.target, Atom.elementTargets_shift elements]
  | .strand atoms => rw [Atom.shift, Atom.target, Atom.target, Atom.targets_shift atoms]
  | .paren _ | .block _ | .number _ | .character _ | .string _ | .name _ | .implicit _ _
  | .system _ | .primitive _ | .oneModifier _ | .twoModifier _ | .define | .assign | .guard => rfl
termination_by structural atom

theorem Atom.targets_shift (atoms : List Atom) :
    Atom.targets (Atom.shiftAll offset atoms) = Atom.targets atoms := by
  match atoms with
  | [] => rfl
  | atom :: atoms =>
      rw [Atom.shiftAll, Atom.targets, Atom.targets, Atom.target_shift atom,
        Atom.targets_shift atoms]
termination_by structural atoms

theorem Atom.elementTargets_shift (elements : List (List Atom)) :
    Atom.elementTargets (Atom.shiftElements offset elements) = Atom.elementTargets elements := by
  match elements with
  | [] => rfl
  | element :: elements =>
      rw [Atom.shiftElements, Atom.elementTargets, Atom.elementTargets,
        Atom.soleTarget_shift element, Atom.elementTargets_shift elements]
termination_by structural elements

theorem Atom.soleTarget_shift (atoms : List Atom) :
    Atom.soleTarget (Atom.shiftAll offset atoms) = Atom.soleTarget atoms := by
  match atoms with
  | [] => rfl
  | [atom] =>
      rw [Atom.shiftAll, Atom.shiftAll, Atom.soleTarget, Atom.soleTarget, Atom.target_shift atom]
  | first :: second :: rest => rfl
termination_by structural atoms

end

theorem modification_alike {atom : Atom} {function function' after after' : Readings}
    (functions : Readings.Moved offset bodies function function')
    (afters : Readings.Moved offset bodies after after') :
    Outcome.Alike (Clause.Moved offset bodies) (modification atom function after)
      (modification (atom.shift offset) function' after') := by
  cases atom with
  | name spelling =>
      refine functions.term.bind fun {operator operator'} moved => ?_
      rw [moved.role]
      split
      · exact .error _ _
      · cases afters with
        | nil =>
            refine .ok ⟨by rw [moved.expression.shifted]; rfl, ?_⟩
            show Stem bodies (operator.expression.parts ++ [])
            exact moved.expression.stem.append .nil
        | cons first later =>
            refine (Readings.Moved.expression (.cons first later)).bind fun argument => .ok ⟨?_, ?_⟩
            · rw [moved.expression.shifted, argument.shifted]
              rfl
            · exact argument.stem.append (moved.expression.stem.append .nil)
  | _ => exact .error _ _

theorem assignment_alike {arrow : Atom} {before before' after after' : Readings}
    (befores : Readings.Moved offset bodies before before')
    (afters : Readings.Moved offset bodies after after') :
    Outcome.Alike (Clause.Moved offset bodies) (assignment before arrow after)
      (assignment before' (arrow.shift offset) after') := by
  cases befores with
  | nil => exact .error _ _
  | @cons first first' rest rest' here later =>
      obtain ⟨atom, reading⟩ := first
      obtain ⟨atom', reading'⟩ := first'
      obtain ⟨rfl, _⟩ := here
      cases later with
      | nil =>
          cases arrow with
          | define =>
              show Outcome.Alike _ (atom.target >>= _) ((atom.shift offset).target >>= _)
              rw [Atom.target_shift]
              refine (Outcome.Alike.refl atom.target).bind fun {target _} same => ?_
              subst same
              exact afters.expression.bind fun value => .ok ⟨by rw [value.shifted, Clause.shift],
                value.stem.append .nil⟩
          | assign =>
              show Outcome.Alike _ (atom.target >>= _) ((atom.shift offset).target >>= _)
              rw [Atom.target_shift]
              refine (Outcome.Alike.refl atom.target).bind fun {target _} same => ?_
              subst same
              exact afters.expression.bind fun value => .ok ⟨by rw [value.shifted, Clause.shift],
                value.stem.append .nil⟩
          | _ => exact .error _ _
      | cons next later =>
          cases arrow with
          | assign => exact modification_alike (.cons next later) afters
          | _ => exact .error _ _

theorem strandEntry_alike {item item' : Item} (moved : Item.Moved offset bodies item item') :
    Outcome.Alike (Expression.Moved offset bodies) (strandEntry item) (strandEntry item') := by
  cases moved with
  | term moved => exact .ok moved.expression
  | oneModifier => exact .error _ _
  | twoModifier => exact .error _ _

theorem isGuard_shift (atom : Atom) : isGuard (atom.shift offset) = isGuard atom := by
  cases atom <;> rfl

theorem isArrow_shift (atom : Atom) : isArrow (atom.shift offset) = isArrow atom := by
  cases atom <;> rfl

theorem Readings.Moved.clause {readings readings' : Readings}
    (moved : Readings.Moved offset bodies readings readings') :
    Outcome.Alike (Clause.Moved offset bodies) readings.clause readings'.clause := by
  obtain ⟨before, after⟩ :=
    moved.span (fun atom => !isGuard atom) fun atom => by rw [isGuard_shift]
  unfold Readings.clause
  simp only [List.span_eq_takeWhile_dropWhile]
  generalize readings.takeWhile (fun reading => !isGuard reading.1) = first at *
  generalize readings'.takeWhile (fun reading => !isGuard reading.1) = first' at *
  generalize readings.dropWhile (fun reading => !isGuard reading.1) = second at *
  generalize readings'.dropWhile (fun reading => !isGuard reading.1) = second' at *
  cases after with
  | cons _ after =>
      have fallbacks := expression after
      exact before.expression.bind fun test => fallbacks.bind fun fallback =>
        .ok ⟨by rw [test.shifted, fallback.shifted, Clause.shift],
          test.stem.append (fallback.stem.append .nil)⟩
  | nil =>
      obtain ⟨before, after⟩ :=
        moved.span (fun atom => !isArrow atom) fun atom => by rw [isArrow_shift]
      dsimp only
      generalize readings.takeWhile (fun reading => !isArrow reading.1) = first at *
      generalize readings'.takeWhile (fun reading => !isArrow reading.1) = first' at *
      generalize readings.dropWhile (fun reading => !isArrow reading.1) = second at *
      generalize readings'.dropWhile (fun reading => !isArrow reading.1) = second' at *
      cases after with
      | @cons arrow arrow' _ _ here after =>
          obtain ⟨arrow, reading⟩ := arrow
          obtain ⟨arrow', reading'⟩ := arrow'
          obtain ⟨rfl, _⟩ := here
          exact assignment_alike before after
      | nil =>
          exact moved.expression.map fun result =>
            ⟨by rw [result.shifted, Clause.shift], result.stem.append .nil⟩

/-- A statement read from its atoms, and the same further on. -/
structure Statement.Moved (offset : Nat) (bodies : List (List RawStatement))
    (first second : Statement) : Prop where
  shifted : second = first.shift offset
  stem : Stem bodies first.clause.parts

mutual

theorem Atom.item_alike (offset : Nat) (atom : Atom) :
    Outcome.Alike (Item.Moved offset atom.bodies) atom.item (atom.shift offset).item := by
  match atom with
  | .paren atoms =>
      rw [Atom.shift, Atom.item, Atom.item, Atom.bodies]
      exact (Atom.readings_moved offset atoms).term.map Item.Moved.term
  | .list elements =>
      rw [Atom.shift, Atom.item, Atom.item, Atom.bodies]
      exact (Atom.elementExpressions_alike offset elements).bind fun items =>
        .ok (.term ⟨.list items, rfl⟩)
  | .strand atoms =>
      rw [Atom.shift, Atom.item, Atom.item, Atom.bodies]
      exact (Atom.strandExpressions_alike offset atoms).bind fun items =>
        .ok (.term ⟨.list items, rfl⟩)
  | .block statements =>
      rw [Atom.shift, Atom.item, Atom.item, Atom.bodies]
      have body := RawStatement.readAll_alike offset statements
      generalize reads : RawStatement.readAll statements = outcome at body
      generalize RawStatement.readAll (RawStatement.shiftAll offset statements) = outcome' at body
      cases body with
      | ok same =>
          subst same
          exact .ok (.term ⟨.block reads List.mem_cons_self, rfl⟩)
      | error => exact .error _ _
  | .oneModifier modifier => exact .ok (.oneModifier modifier)
  | .twoModifier modifier => exact .ok (.twoModifier modifier)
  | .number _ | .character _ | .string _ | .name _ | .implicit _ _ | .system _ | .primitive _ =>
      exact .ok (.term ⟨⟨rfl, Stem.nil.cons nofun⟩, rfl⟩)
  | .define | .assign | .guard => exact .error _ _
termination_by structural atom

theorem Atom.readings_moved (offset : Nat) (atoms : List Atom) :
    Readings.Moved offset (Atom.bodiesOfAll atoms) (Atom.readings atoms)
      (Atom.readings (Atom.shiftAll offset atoms)) := by
  match atoms with
  | [] => exact .nil
  | atom :: atoms =>
      have here := Atom.item_alike offset atom
      have later := Atom.readings_moved offset atoms
      rw [Atom.shiftAll, Atom.bodiesOfAll, Atom.readings, Atom.readings]
      exact .cons ⟨rfl, here.imp fun item => item.mono (List.subset_append_left ..)⟩
        (later.mono (List.subset_append_right ..))
termination_by structural atoms

theorem Atom.elementExpressions_alike (offset : Nat) (elements : List (List Atom)) :
    Outcome.Alike (List.Forall₂ (Expression.Moved offset (Atom.bodiesOfElements elements)))
      (Atom.elementExpressions elements)
      (Atom.elementExpressions (Atom.shiftElements offset elements)) := by
  match elements with
  | [] => exact .ok .nil
  | element :: elements =>
      have here := (Atom.readings_moved offset element).expression
      have later := Atom.elementExpressions_alike offset elements
      rw [Atom.shiftElements, Atom.bodiesOfElements, Atom.elementExpressions,
        Atom.elementExpressions]
      exact here.bind fun first => later.bind fun rest => .ok <|
        .cons (first.mono (List.subset_append_left ..)) <|
          rest.imp fun _ _ item => item.mono (List.subset_append_right ..)
termination_by structural elements

theorem Atom.strandExpressions_alike (offset : Nat) (atoms : List Atom) :
    Outcome.Alike (List.Forall₂ (Expression.Moved offset (Atom.bodiesOfAll atoms)))
      (Atom.strandExpressions atoms) (Atom.strandExpressions (Atom.shiftAll offset atoms)) := by
  match atoms with
  | [] => exact .ok .nil
  | atom :: atoms =>
      have here := Atom.item_alike offset atom
      have later := Atom.strandExpressions_alike offset atoms
      rw [Atom.shiftAll, Atom.bodiesOfAll, Atom.strandExpressions, Atom.strandExpressions]
      exact here.bind fun item => (strandEntry_alike item).bind fun first =>
        later.bind fun rest => .ok <|
          .cons (first.mono (List.subset_append_left ..)) <|
            rest.imp fun _ _ item => item.mono (List.subset_append_right ..)
termination_by structural atoms

theorem RawStatement.read_alike (offset : Nat) (statement : RawStatement) :
    Outcome.Alike (Statement.Moved offset statement.bodies) statement.read
      (statement.shift offset).read := by
  match statement with
  | .mk atoms span =>
      rw [RawStatement.shift, RawStatement.bodies, RawStatement.read, RawStatement.read]
      refine ((Atom.readings_moved offset atoms).clause.within _ _).map fun clause => ?_
      exact ⟨by rw [clause.shifted, Statement.shift, Option.map_some], clause.stem⟩
termination_by structural statement

theorem RawStatement.readAll_alike (offset : Nat) (statements : List RawStatement) :
    Outcome.Alike (fun body body' => body' = body.map (Statement.shift offset))
      (RawStatement.readAll statements)
      (RawStatement.readAll (RawStatement.shiftAll offset statements)) := by
  match statements with
  | [] => exact .ok rfl
  | statement :: statements =>
      have here := RawStatement.read_alike offset statement
      have later := RawStatement.readAll_alike offset statements
      rw [RawStatement.shiftAll, RawStatement.readAll, RawStatement.readAll]
      refine here.bind fun first => later.bind fun rest => .ok ?_
      rw [first.shifted, rest, List.map_cons]
termination_by structural statements

end

end Statements

end PointFree
