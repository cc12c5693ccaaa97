import PointFree.Proofs.Acceptance
import PointFree.Proofs.Placing.Reading

/-!
Contract: where a program is refused.

Whatever is wrong with a statement is refused without a place as long as the statement is
emitted, and then placed there. The queue places its refusals likewise, by the statement that
an instruction was emitted for. What it lays down for a body without statements has none, so
there an operand that does not fit in a word is refused nowhere in particular.
-/

namespace PointFree

open Outcome

/-! ### Statements -/

/-- The failure does not say where it arose. -/
def Failure.Unplaced (failure : Failure) : Prop :=
  failure.span = none

theorem Outcome.fails_of_unplaced {α : Type} {outcome : Outcome α} {span : Option Span}
    (fails : outcome.Fails Failure.Unplaced) :
    (Outcome.within span outcome).Fails fun failure => failure.span = span := by
  refine Fails.within (fails.imp fun failure unplaced => ?_)
  obtain ⟨fault, _⟩ := failure
  cases unplaced
  rfl

section Statements

variable {surrounding : Surrounding}

mutual

theorem Expression.emit_fails (expression : Expression) :
    (expression.emit surrounding).Fails Failure.Unplaced := by
  match expression with
  | .number _ | .character _ | .string _ | .implicit _ | .block _ => trivial
  | .name word =>
      refine Fails.bind ?_ fun _ _ => trivial
      rw [Surrounding.address]
      split
      · trivial
      · exact (rfl : (Failure.ofFault _).span = none)
  | .primitive word =>
      refine Fails.bind ?_ fun _ _ => trivial
      rw [Surrounding.constant]
      split
      · trivial
      · exact (rfl : (Failure.ofFault _).span = none)
  | .list items => exact (Expression.emitAll_fails items).bind fun _ _ => trivial
  | .call function right =>
      exact (Expression.emit_fails right).bind fun _ _ =>
        (Expression.emit_fails function).bind fun _ _ => trivial
  | .callBoth function left right =>
      exact (Expression.emit_fails right).bind fun _ _ =>
        (Expression.emit_fails function).bind fun _ _ =>
          (Expression.emit_fails left).bind fun _ _ => trivial
  | .modifyOne glyph operand =>
      rw [Expression.emit]
      split
      · exact (rfl : (Failure.ofFault _).span = none)
      · exact (Expression.emit_fails operand).bind fun _ _ => trivial
  | .modifyTwo glyph left right =>
      rw [Expression.emit]
      split
      · exact (rfl : (Failure.ofFault _).span = none)
      · exact (Expression.emit_fails right).bind fun _ _ =>
          (Expression.emit_fails left).bind fun _ _ => trivial
  | .atop left right =>
      exact (Expression.emit_fails right).bind fun _ _ =>
        (Expression.emit_fails left).bind fun _ _ => trivial
  | .fork left middle right =>
      exact (Expression.emit_fails right).bind fun _ _ =>
        (Expression.emit_fails middle).bind fun _ _ =>
          (Expression.emit_fails left).bind fun _ _ => trivial
termination_by structural expression

theorem Expression.emitAll_fails (items : List Expression) :
    (Expression.emitAll surrounding items).Fails Failure.Unplaced := by
  match items with
  | [] => trivial
  | item :: items =>
      exact (Expression.emit_fails item).bind fun _ _ =>
        (Expression.emitAll_fails items).bind fun _ _ => trivial
termination_by structural items

end

mutual

theorem Target.emit_fails (target : Target) :
    (target.emit surrounding).Fails Failure.Unplaced := by
  match target with
  | .name word =>
      refine Fails.bind ?_ fun _ _ => trivial
      rw [Surrounding.address]
      split
      · trivial
      · exact (rfl : (Failure.ofFault _).span = none)
  | .list targets => exact (Target.emitAll_fails targets).bind fun _ _ => trivial
termination_by structural target

theorem Target.emitAll_fails (targets : List Target) :
    (Target.emitAll surrounding targets).Fails Failure.Unplaced := by
  match targets with
  | [] => trivial
  | target :: targets =>
      exact (Target.emit_fails target).bind fun _ _ =>
        (Target.emitAll_fails targets).bind fun _ _ => trivial
termination_by structural targets

end

theorem Target.check_fails (target : Target) : target.check.Fails Failure.Unplaced := by
  rw [Target.check]
  split
  · exact (rfl : (Failure.ofFault _).span = none)
  · split
    · exact (rfl : (Failure.ofFault _).span = none)
    · trivial

theorem Scope.declareAll_fails (scope : Scope) (names : List String) :
    (scope.declareAll names).Fails Failure.Unplaced := by
  induction names generalizing scope with
  | nil => trivial
  | cons name names inductionHypothesis =>
      rw [declareAll, List.foldlM_cons, declare]
      split
      · exact (rfl : (Failure.ofFault _).span = none)
      · exact inductionHypothesis _

variable {vocabulary : Vocabulary} {outer : List Scope}

theorem Clause.emit_fails (clause : Clause) (scope : Scope) (last : Bool) :
    (clause.emit vocabulary outer scope last).Fails Failure.Unplaced := by
  cases clause with
  | expression result => exact result.emit_fails.bind fun _ _ => trivial
  | define target value =>
      exact target.check_fails.bind fun _ _ => value.emit_fails.bind fun _ _ =>
        (scope.declareAll_fails _).bind fun _ _ => target.emit_fails.bind fun _ _ => trivial
  | assign target value =>
      exact target.check_fails.bind fun _ _ => value.emit_fails.bind fun _ _ =>
        target.emit_fails.bind fun _ _ => trivial
  | modify name function argument =>
      cases argument with
      | none =>
          exact function.emit_fails.bind fun _ _ => (Target.emit_fails _).bind fun _ _ => trivial
      | some argument =>
          exact argument.emit_fails.bind fun _ _ => function.emit_fails.bind fun _ _ =>
            (Target.emit_fails _).bind fun _ _ => trivial
  | guard test fallback =>
      cases last with
      | true => exact (rfl : (Failure.ofFault _).span = none)
      | false => exact test.emit_fails.bind fun _ _ => fallback.emit_fails.bind fun _ _ => trivial

/-! ### Blocks -/

theorem Statement.emitAll_fails (statements : List Statement) (scope : Scope) :
    (Statement.emitAll vocabulary outer scope statements).Fails fun failure =>
      ∃ statement ∈ statements, failure.span = statement.span := by
  induction statements generalizing scope with
  | nil => trivial
  | cons statement rest inductionHypothesis =>
      have first : Outcome.Fails (fun failure => failure.span = statement.span)
          (Outcome.within statement.span
            (statement.clause.emit vocabulary outer scope rest.isEmpty)) :=
        fails_of_unplaced (statement.clause.emit_fails scope rest.isEmpty)
      refine (first.imp fun _ place => ⟨statement, .head _, place⟩).bind fun emitted _ => ?_
      refine ((inductionHypothesis emitted.2).imp ?_).bind fun _ _ => trivial
      exact fun _ ⟨other, isOther, place⟩ => ⟨other, .tail _ isOther, place⟩

theorem Block.emit_fails (block : Block) (scope : Scope) :
    (block.emit vocabulary outer scope).Fails fun failure =>
      ∃ statement ∈ block.statements, failure.span = statement.span := by
  obtain ⟨statements⟩ := block
  cases statements with
  | nil => trivial
  | cons first rest => exact Statement.emitAll_fails (first :: rest) scope

theorem Statement.span_of_emitAll {statements : List Statement} {scope whole : Scope}
    {located : List Located}
    (emits : Statement.emitAll vocabulary outer scope statements = .ok (located, whole))
    {entry : Located} (member : entry ∈ located) :
    ∃ statement ∈ statements, entry.2 = statement.span := by
  induction statements generalizing scope located with
  | nil =>
      cases emits
      cases member
  | cons statement rest inductionHypothesis =>
      obtain ⟨first, _, emits⟩ := Outcome.bind_eq_ok.1 emits
      obtain ⟨others, restEmits, done⟩ := Outcome.bind_eq_ok.1 emits
      cases done
      rcases List.mem_append.1 member with here | later
      · obtain ⟨_, _, rfl⟩ := List.mem_map.1 here
        exact ⟨statement, .head _, rfl⟩
      · obtain ⟨other, isOther, place⟩ := inductionHypothesis restEmits later
        exact ⟨other, .tail _ isOther, place⟩

/-- Everything emitted belongs to a statement, unless there is none. -/
theorem Block.span_of_emit {block : Block} {scope whole : Scope} {located : List Located}
    (emits : block.emit vocabulary outer scope = .ok (located, whole)) {entry : Located}
    (member : entry ∈ located) :
    entry.2 = none ∨ ∃ statement ∈ block.statements, entry.2 = statement.span := by
  obtain ⟨statements⟩ := block
  cases statements with
  | nil =>
      cases emits
      simp only [List.mem_cons, List.not_mem_nil, or_false] at member
      rcases member with rfl | rfl
      · exact .inl rfl
      · exact .inl rfl
  | cons first rest => exact .inr (Statement.span_of_emitAll emits member)

end Statements

/-! ### The queue -/

/-- The failure is that an operand does not fit in a word, and it arose here. -/
def Failure.IsOverflow (span : Option Span) (failure : Failure) : Prop :=
  ∃ operand, failure = ⟨.operandTooLarge operand, span⟩ ∧ operandLimit ≤ operand

namespace Assembly

theorem lay_fails (assembly : Assembly) (span : Option Span) (instruction : Instruction) :
    (assembly.lay span instruction).Fails (Failure.IsOverflow none) := by
  refine Fails.bind ?_ fun _ _ => trivial
  rw [checkOperands]
  split
  · next operand found => exact ⟨operand, rfl, by simpa using List.find?_some found⟩
  · trivial

theorem layEmitted_fails (state : Assembly × List Block) (located : Located) :
    (layEmitted state located).Fails (Failure.IsOverflow located.2) := by
  have places {failure : Failure} : failure.IsOverflow none →
      (failure.within located.2).IsOverflow located.2 := by
    rintro ⟨operand, rfl, large⟩
    exact ⟨operand, rfl, large⟩
  obtain ⟨emitted, span⟩ := located
  refine Fails.within ?_
  cases emitted with
  | instruction | literal | closure => exact ((lay_fails ..).imp fun _ => places).map _

theorem layAll_fails {located : List Located} (state : Assembly × List Block) :
    (located.foldlM layEmitted state).Fails fun failure =>
      ∃ entry ∈ located, failure.IsOverflow entry.2 := by
  induction located generalizing state with
  | nil => trivial
  | cons entry rest inductionHypothesis =>
      rw [List.foldlM_cons]
      refine ((layEmitted_fails state entry).imp fun _ overflow =>
        ⟨entry, .head _, overflow⟩).bind fun next _ => ?_
      refine (inductionHypothesis next).imp ?_
      exact fun _ ⟨other, isOther, overflow⟩ => ⟨other, .tail _ isOther, overflow⟩

end Assembly

/-- The span of a statement of some body in the whole. -/
def Block.Places (whole : Block) (span : Option Span) : Prop :=
  ∃ around body, whole.Nests around body ∧ ∃ statement ∈ body.statements, span = statement.span

/-- The failure has the place of a statement, or it is an overflow that has none. -/
def Block.Refuses (whole : Block) (failure : Failure) : Prop :=
  whole.Places failure.span ∨ failure.IsOverflow none

section Queue

variable {vocabulary : Vocabulary} {whole : Block} {around : List Block} {task : Task}

theorem Assembly.perform_fails (assembly : Assembly) (nests : whole.Nests around task.body) :
    (assembly.perform vocabulary task).Fails whole.Refuses := by
  refine ((task.body.emit_fails task.scope).imp fun _ placed => ?_).bind fun emitted emits => ?_
  · exact .inl ⟨around, task.body, nests, placed⟩
  · refine ((layAll_fails (assembly, [])).imp ?_).bind fun _ _ => trivial
    rintro failure ⟨entry, member, overflow⟩
    obtain unplaced | placed := Block.span_of_emit emits member
    · exact .inr (unplaced ▸ overflow)
    · obtain ⟨operand, rfl, _⟩ := overflow
      exact .inl ⟨around, task.body, nests, placed⟩

/-- The bodies of the tasks that come of a task stand in it. -/
theorem Assembly.nests_of_perform {assembly after : Assembly} {new : List Task} {scope : Scope}
    (performed : assembly.perform vocabulary task = .ok (after, new, scope))
    (nests : whole.Nests around task.body) :
    ∀ next ∈ new, ∃ around, whole.Nests around next.body := by
  obtain ⟨located, between, bodies, emits, lays, _, rfl⟩ := perform_eq_ok performed
  obtain ⟨_, _, rfl⟩ := Laid.foldlM lays
  intro next member
  obtain ⟨inner, isInner, rfl⟩ := List.mem_map.1 member
  rw [List.nil_append, Block.bodies_of_emit emits] at isInner
  obtain ⟨statement, isStatement, part⟩ := Block.mem_bodies.1 isInner
  exact ⟨task.body :: around, .literal nests isStatement part⟩

theorem Assembly.performAll_fails (budget : Nat) (assembly : Assembly) (waiting : List Task)
    (nested : ∀ task ∈ waiting, ∃ around, whole.Nests around task.body) :
    (performAll vocabulary budget assembly waiting).Fails whole.Refuses := by
  induction budget generalizing assembly waiting with
  | zero => trivial
  | succ budget inductionHypothesis =>
      cases waiting with
      | nil => trivial
      | cons task waiting =>
          obtain ⟨⟨around, nests⟩, later⟩ := List.forall_mem_cons.1 nested
          refine (perform_fails assembly nests).bind fun done performed => ?_
          refine inductionHypothesis _ _ (List.forall_mem_append.2 ⟨later, ?_⟩)
          exact nests_of_perform performed nests

end Queue

/-! ### Programs -/

section Programs

variable {vocabulary : Vocabulary} {externals : List String}

theorem Scope.declareAll_of_nodup {names : List String} (distinct : names.Nodup) :
    Scope.declareAll [] names = .ok names := by
  have reports := @declareAll_reports_of_nodup [] names distinct
  cases declared : declareAll [] names with
  | ok scope => rw [(declareAll_eq_ok declared).1, List.nil_append]
  | error failure =>
      rw [declared] at reports
      obtain ⟨_, _, none, _⟩ := reports
      cases none

/-- A block is refused for names from outside only if they are not distinct, and otherwise at a
statement, unless it is too large. -/
theorem Block.compile_fails (block : Block) (distinct : externals.Nodup) :
    (block.compile vocabulary externals).Fails block.Refuses := by
  rw [compile, Scope.declareAll_of_nodup distinct]
  refine Fails.bind trivial fun scope _ => ?_
  refine (Assembly.perform_fails _ .whole).bind fun top performed => ?_
  refine (Assembly.performAll_fails _ _ _ ?_).bind fun _ _ => trivial
  exact Assembly.nests_of_perform performed .whole

end Programs

end PointFree
