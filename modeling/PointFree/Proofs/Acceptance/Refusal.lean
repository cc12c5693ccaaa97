import PointFree.Proofs.Acceptance.Wellformed
import PointFree.Proofs.Compilation.Assembly
import PointFree.Proofs.Meaning.Variables

/-!
Contract: why a block is refused.

`Outcome.Reports` says of an outcome that it succeeds where none of some faults is there
and fails with one of them otherwise. Every part of the emission reports the faults of
its part of the tree, so a refusal names a fault that the tree has, and a tree without
faults is emitted.
-/

namespace PointFree

/-! ### Outcomes that report faults -/

namespace Outcome

variable {α β : Type}

/-- The outcome fails exactly when there is a fault, and with one that is there. -/
def Reports (faults : Fault → Prop) : Outcome α → Prop
  | .ok _ => ∀ fault, ¬faults fault
  | .error failure => faults failure.fault

theorem Reports.imp {faults faults' : Fault → Prop} {outcome : Outcome α}
    (reports : outcome.Reports faults) (same : ∀ fault, faults fault ↔ faults' fault) :
    outcome.Reports faults' := by
  cases outcome with
  | ok value => exact fun fault isFault => reports fault ((same fault).2 isFault)
  | error failure => exact (same failure.fault).1 reports

theorem Reports.bind {faults faults' : Fault → Prop} {outcome : Outcome α}
    {next : α → Outcome β} (first : outcome.Reports faults)
    (rest : ∀ value, outcome = .ok value → (next value).Reports faults') :
    (outcome >>= next).Reports fun fault => faults fault ∨ faults' fault := by
  cases outcome with
  | ok value =>
      have later := rest value rfl
      exact later.imp fun fault => (or_iff_right (first fault)).symm
  | error failure => exact .inl first

theorem Reports.map {faults : Fault → Prop} {outcome : Outcome α} (first : outcome.Reports faults)
    (change : α → β) : (outcome >>= fun value => pure (change value)).Reports faults := by
  cases outcome with
  | ok value => exact first
  | error failure => exact first

theorem fault_within (span : Option Span) (failure : Failure) :
    (failure.within span).fault = failure.fault := by
  obtain ⟨fault, place⟩ := failure
  cases place <;> rfl

theorem Reports.within {faults : Fault → Prop} {outcome : Outcome α}
    (reports : outcome.Reports faults) (span : Option Span) :
    (Outcome.within span outcome).Reports faults := by
  cases outcome with
  | ok value => exact reports
  | error failure =>
      show faults (failure.within span).fault
      rw [fault_within]
      exact reports

end Outcome

/-! ### Names in scopes -/

namespace Scope

theorem slot?_eq_none_iff {scope : Scope} {name : String} :
    scope.slot? name = none ↔ name ∉ scope := by
  rw [slot?, Option.map_eq_none_iff, List.idxOf?_eq_none_iff]

theorem resolve?_eq_none_iff {name : String} {scopes : List Scope} :
    resolve? name scopes = none ↔ ∀ scope ∈ scopes, name ∉ scope := by
  induction scopes with
  | nil => simp [resolve?]
  | cons scope outer inductionHypothesis =>
      rw [resolve?, List.forall_mem_cons, ← inductionHypothesis, ← slot?_eq_none_iff]
      cases scope.slot? name with
      | none => simp
      | some slot => simp

/-- A name is refused when it is there already, be it from before or as one of the
names before it. -/
theorem declareAll_reports {scope : Scope} {names : List String} :
    (scope.declareAll names).Reports fun fault =>
      ∃ earlier name later, names = earlier ++ name :: later ∧ name ∈ scope ++ earlier ∧
        fault = .alreadyDefined name := by
  induction names generalizing scope with
  | nil =>
      rintro fault ⟨earlier, name, later, split, _⟩
      exact List.append_ne_nil_of_right_ne_nil earlier (List.cons_ne_nil name later) split.symm
  | cons name names inductionHypothesis =>
      rw [declareAll, List.foldlM_cons, declare]
      split
      · next here => exact ⟨[], name, names, rfl, by simpa using here, rfl⟩
      · next fresh =>
          refine inductionHypothesis.imp fun fault => ?_
          constructor
          · rintro ⟨earlier, other, later, rfl, here, rfl⟩
            exact ⟨name :: earlier, other, later, rfl, by simpa using here, rfl⟩
          · rintro ⟨earlier, other, later, split, here, rfl⟩
            cases earlier with
            | nil =>
                obtain ⟨rfl, rfl⟩ := List.cons.inj split
                exact absurd (by simpa using here) fresh
            | cons first earlier =>
                obtain ⟨rfl, rfl⟩ := List.cons.inj split
                exact ⟨earlier, other, later, rfl, by simpa using here, rfl⟩

theorem declareAll_reports_of_nodup {scope : Scope} {names : List String}
    (distinct : names.Nodup) :
    (scope.declareAll names).Reports fun fault =>
      ∃ name, name ∈ names ∧ name ∈ scope ∧ fault = .alreadyDefined name := by
  refine declareAll_reports.imp fun fault => ?_
  constructor
  · rintro ⟨earlier, name, later, rfl, here, rfl⟩
    refine ⟨name, by simp, ?_, rfl⟩
    have apart : name ∉ earlier := fun member =>
      (List.nodup_append.1 distinct).2.2 name member name (.head _) rfl
    exact (List.mem_append.1 here).resolve_right apart
  · rintro ⟨name, member, here, rfl⟩
    obtain ⟨earlier, later, rfl⟩ := List.append_of_mem member
    exact ⟨earlier, name, later, rfl, List.mem_append_left _ here, rfl⟩

end Scope

/-! ### Expressions -/

/-- What is wrong with one part of an expression, its operands apart. -/
def Surrounding.fault? (surrounding : Surrounding) : Expression → Option Fault
  | .name word =>
      match Scope.resolve? word surrounding.scopes with
      | some _ => none
      | none => some (.notDefined word)
  | .primitive word =>
      match surrounding.vocabulary.lookup word with
      | some _ => none
      | none => some (.unknownPrimitive word)
  | .modifyOne glyph _ =>
      match OneModifier.ofGlyph? glyph with
      | some _ => none
      | none => some (.unknownOneModifier glyph)
  | .modifyTwo glyph _ _ =>
      match TwoModifier.ofGlyph? glyph with
      | some _ => none
      | none => some (.unknownTwoModifier glyph)
  | _ => none

/-- Some of the parts has the fault. -/
def Surrounding.Faults (surrounding : Surrounding) (parts : List Expression) (fault : Fault) :
    Prop :=
  ∃ part ∈ parts, surrounding.fault? part = some fault

section Expressions

variable {surrounding : Surrounding}

@[simp]
theorem Surrounding.faults_nil (fault : Fault) : ¬surrounding.Faults [] fault := by
  rintro ⟨_, member, _⟩
  cases member

@[simp]
theorem Surrounding.faults_cons (part : Expression) (parts : List Expression) (fault : Fault) :
    surrounding.Faults (part :: parts) fault ↔
      surrounding.fault? part = some fault ∨ surrounding.Faults parts fault := by
  simp [Faults]

@[simp]
theorem Surrounding.faults_append (first second : List Expression) (fault : Fault) :
    surrounding.Faults (first ++ second) fault ↔
      surrounding.Faults first fault ∨ surrounding.Faults second fault := by
  simp [Faults, or_and_right, exists_or]

theorem Surrounding.address_reports (name : String) :
    (surrounding.address name).Reports fun fault =>
      Scope.resolve? name surrounding.scopes = none ∧ fault = .notDefined name := by
  rw [address]
  split
  · next found => exact fun fault missing => by simp [found] at missing
  · next missing => exact ⟨missing, rfl⟩

mutual

theorem Expression.emit_reports : ∀ expression : Expression,
    (expression.emit surrounding).Reports (surrounding.Faults expression.parts)
  | .number _ | .character _ | .string _ | .implicit _ | .block _ => by
      simp [Expression.emit, Outcome.Reports, Expression.parts, Surrounding.fault?]
  | .name word => by
      refine ((surrounding.address_reports word).map _).imp fun fault => ?_
      cases found : Scope.resolve? word surrounding.scopes with
      | none => simp [Expression.parts, Surrounding.fault?, found, eq_comm]
      | some address => simp [Expression.parts, Surrounding.fault?, found]
  | .primitive word => by
      rw [Expression.emit, Surrounding.constant]
      cases found : surrounding.vocabulary.lookup word with
      | none =>
          exact ⟨.primitive word, .head _, by simp [Surrounding.fault?, found, Failure.ofFault]⟩
      | some place =>
          intro fault
          simp [Expression.parts, Surrounding.fault?, found]
  | .list items => by
      refine ((Expression.emitAll_reports items).map _).imp fun fault => ?_
      simp [Expression.parts, Surrounding.fault?]
  | .call function right => by
      refine (Outcome.Reports.bind right.emit_reports fun _ _ =>
        function.emit_reports.map _).imp fun fault => ?_
      simp [Expression.parts, Surrounding.fault?]
  | .callBoth function left right => by
      refine (Outcome.Reports.bind right.emit_reports fun _ _ =>
        Outcome.Reports.bind function.emit_reports fun _ _ =>
          left.emit_reports.map _).imp fun fault => ?_
      simp [Expression.parts, Surrounding.fault?]
  | .modifyOne glyph operand => by
      rw [Expression.emit]
      cases found : OneModifier.ofGlyph? glyph with
      | none =>
          exact ⟨.modifyOne glyph operand, .head _,
            by simp [Surrounding.fault?, found, Failure.ofFault]⟩
      | some modifier =>
          refine (operand.emit_reports.map _).imp fun fault => ?_
          simp [Expression.parts, Surrounding.fault?, found]
  | .modifyTwo glyph left right => by
      rw [Expression.emit]
      cases found : TwoModifier.ofGlyph? glyph with
      | none =>
          exact ⟨.modifyTwo glyph left right, .head _,
            by simp [Surrounding.fault?, found, Failure.ofFault]⟩
      | some modifier =>
          refine (Outcome.Reports.bind right.emit_reports fun _ _ =>
            left.emit_reports.map _).imp fun fault => ?_
          simp [Expression.parts, Surrounding.fault?, found]
  | .atop left right => by
      refine (Outcome.Reports.bind right.emit_reports fun _ _ =>
        left.emit_reports.map _).imp fun fault => ?_
      simp [Expression.parts, Surrounding.fault?]
  | .fork left middle right => by
      refine (Outcome.Reports.bind right.emit_reports fun _ _ =>
        Outcome.Reports.bind middle.emit_reports fun _ _ =>
          left.emit_reports.map _).imp fun fault => ?_
      simp [Expression.parts, Surrounding.fault?]
termination_by structural expression => expression

theorem Expression.emitAll_reports : ∀ items : List Expression,
    (Expression.emitAll surrounding items).Reports
      (surrounding.Faults (Expression.partsOfAll items))
  | [] => by simp [Expression.emitAll, Outcome.Reports, Expression.partsOfAll]
  | item :: items => by
      refine (Outcome.Reports.bind item.emit_reports fun _ _ =>
        (Expression.emitAll_reports items).map _).imp fun fault => ?_
      simp [Expression.partsOfAll]
termination_by structural items => items

end

end Expressions

/-! ### Targets -/

mutual

theorem Target.isFilled_iff : ∀ target : Target,
    target.isFilled = true ↔ ¬target.Contains (.list [])
  | .name word => by
      refine iff_of_true rfl ?_
      rintro ⟨⟩
  | .list targets => by
      rw [Target.isFilled, Bool.and_eq_true, Target.areFilled_iff targets]
      constructor
      · rintro ⟨filled, inner⟩ (_ | ⟨member, contains⟩)
        · simp at filled
        · exact inner _ member contains
      · intro filled
        refine ⟨?_, fun target member contains => filled (.inside member contains)⟩
        cases targets with
        | nil => exact absurd (.self _) filled
        | cons => rfl
termination_by structural target => target

theorem Target.areFilled_iff : ∀ targets : List Target,
    Target.areFilled targets = true ↔ ∀ target ∈ targets, ¬target.Contains (.list [])
  | [] => by simp [Target.areFilled]
  | target :: targets => by
      rw [Target.areFilled, Bool.and_eq_true, Target.isFilled_iff target,
        Target.areFilled_iff targets, List.forall_mem_cons]
termination_by structural targets => targets

end

theorem repeated?_eq_none_iff {before names : List String} :
    repeated? before names = none ↔ names.Nodup ∧ ∀ name ∈ names, name ∉ before := by
  induction names generalizing before with
  | nil => simp [repeated?]
  | cons name names inductionHypothesis =>
      rw [repeated?]
      split
      · next here => simp [here]
      · next fresh =>
          rw [inductionHypothesis, List.nodup_cons, List.forall_mem_cons]
          simp only [List.mem_append, List.mem_singleton, not_or]
          constructor
          · rintro ⟨distinct, apart⟩
            exact ⟨⟨fun member => (apart name member).2 rfl, distinct⟩, fresh,
              fun other member => (apart other member).1⟩
          · rintro ⟨⟨new, distinct⟩, _, apart⟩
            exact ⟨distinct, fun other member =>
              ⟨apart other member, fun same => new (same ▸ member)⟩⟩

/-- What is wrong with a target on its own. -/
inductive Target.Refuses (target : Target) : Fault → Prop where
  | empty : target.Contains (.list []) → Refuses target .emptyTarget
  | repeated {name : String} : ¬target.names.Nodup → Refuses target (.repeatedTarget name)

theorem Target.check_reports (target : Target) : target.check.Reports target.Refuses := by
  rw [Target.check]
  have filled := target.isFilled_iff
  cases isFilled : target.isFilled with
  | false => exact .empty (by simpa [isFilled] using filled)
  | true =>
      have distinct := @repeated?_eq_none_iff [] target.names
      cases found : repeated? [] target.names with
      | none =>
          rintro fault (contains | twice)
          · exact filled.1 isFilled contains
          · exact twice (distinct.1 found).1
      | some name => exact .repeated fun nodup => by simp [found, nodup] at distinct

section Targets

variable {surrounding : Surrounding}

/-- Some of the names is not in any scope. -/
def Surrounding.Misses (surrounding : Surrounding) (names : List String) (fault : Fault) : Prop :=
  ∃ name ∈ names, Scope.resolve? name surrounding.scopes = none ∧ fault = .notDefined name

mutual

theorem Target.emit_reports : ∀ target : Target,
    (target.emit surrounding).Reports (surrounding.Misses target.names)
  | .name word => by
      refine ((surrounding.address_reports word).map _).imp fun fault => ?_
      simp [Surrounding.Misses, Target.names]
  | .list targets => by
      refine ((Target.emitAll_reports targets).map _).imp fun fault => ?_
      simp [Surrounding.Misses, Target.names]
termination_by structural target => target

theorem Target.emitAll_reports : ∀ targets : List Target,
    (Target.emitAll surrounding targets).Reports
      (surrounding.Misses (Target.namesOfAll targets))
  | [] => by simp [Target.emitAll, Outcome.Reports, Surrounding.Misses, Target.namesOfAll]
  | target :: targets => by
      refine (Outcome.Reports.bind target.emit_reports fun _ _ =>
        (Target.emitAll_reports targets).map _).imp fun fault => ?_
      simp [Surrounding.Misses, Target.namesOfAll, or_and_right, exists_or]
termination_by structural targets => targets

end

end Targets

/-! ### Statements -/

/-- What is wrong with a statement, given the names declared before it. -/
inductive Clause.Refuses (vocabulary : Vocabulary) (outer : List Scope) (scope : Scope)
    (last : Bool) (clause : Clause) : Fault → Prop where
  | unbound {name : String} : clause.Mentions name → (∀ visible ∈ scope :: outer, name ∉ visible) →
      Refuses vocabulary outer scope last clause (.notDefined name)
  | redeclared {name : String} : name ∈ clause.declares → name ∈ scope →
      Refuses vocabulary outer scope last clause (.alreadyDefined name)
  | target {target : Target} {fault : Fault} : clause.target? = some target →
      target.Refuses fault → Refuses vocabulary outer scope last clause fault
  | guard : last = true → clause.isGuard = true →
      Refuses vocabulary outer scope last clause .guardLast
  | primitive {word : String} : .primitive word ∈ clause.parts → vocabulary.lookup word = none →
      Refuses vocabulary outer scope last clause (.unknownPrimitive word)
  | one {glyph : Char} {operand : Expression} : .modifyOne glyph operand ∈ clause.parts →
      OneModifier.ofGlyph? glyph = none →
      Refuses vocabulary outer scope last clause (.unknownOneModifier glyph)
  | two {glyph : Char} {left right : Expression} : .modifyTwo glyph left right ∈ clause.parts →
      TwoModifier.ofGlyph? glyph = none →
      Refuses vocabulary outer scope last clause (.unknownTwoModifier glyph)

section Statements

variable {vocabulary : Vocabulary} {outer : List Scope} {scope : Scope} {last : Bool}

theorem Surrounding.Faults.refuses {clause : Clause} {fault : Fault}
    (faults : Surrounding.Faults ⟨vocabulary, scope :: outer⟩ clause.parts fault) :
    clause.Refuses vocabulary outer scope last fault := by
  obtain ⟨part, member, isFault⟩ := faults
  cases part with
  | name word =>
      rw [fault?] at isFault
      split at isFault
      · cases isFault
      · next missing =>
          cases isFault
          exact .unbound (.inl member) (Scope.resolve?_eq_none_iff.1 missing)
  | primitive word =>
      rw [fault?] at isFault
      split at isFault
      · cases isFault
      · next missing =>
          cases isFault
          exact .primitive member missing
  | modifyOne glyph operand =>
      rw [fault?] at isFault
      split at isFault
      · cases isFault
      · next missing =>
          cases isFault
          exact .one member missing
  | modifyTwo glyph left right =>
      rw [fault?] at isFault
      split at isFault
      · cases isFault
      · next missing =>
          cases isFault
          exact .two member missing
  | number _ | character _ | string _ | implicit _ | list _ | call _ _ | callBoth _ _ _ | atop _ _
  | fork _ _ _ | block _ => cases isFault

theorem Surrounding.Misses.refuses {clause : Clause} {fault : Fault}
    (misses : Surrounding.Misses ⟨vocabulary, scope :: outer⟩ clause.updates fault) :
    clause.Refuses vocabulary outer scope last fault := by
  obtain ⟨name, member, missing, rfl⟩ := misses
  exact .unbound (.inr member) (Scope.resolve?_eq_none_iff.1 missing)

/-- The faults of a statement by the place where emitting it comes upon them. -/
theorem Clause.refuses_iff {clause : Clause} {fault : Fault} :
    clause.Refuses vocabulary outer scope last fault ↔
      (∃ target, clause.target? = some target ∧ target.Refuses fault) ∨
        Surrounding.Faults ⟨vocabulary, scope :: outer⟩ clause.parts fault ∨
        Surrounding.Misses ⟨vocabulary, scope :: outer⟩ clause.updates fault ∨
        (∃ name, name ∈ clause.declares ∧ name ∈ scope ∧ fault = .alreadyDefined name) ∨
        (last = true ∧ clause.isGuard = true ∧ fault = .guardLast) := by
  constructor
  · rintro (⟨member | member, missing⟩ | ⟨member, here⟩ | ⟨isTarget, refuses⟩ | ⟨isLast, isGuard⟩ |
      ⟨member, missing⟩ | ⟨member, missing⟩ | ⟨member, missing⟩)
    · have unresolved := Scope.resolve?_eq_none_iff.2 missing
      exact .inr (.inl ⟨_, member, by simp [Surrounding.fault?, unresolved]⟩)
    · exact .inr (.inr (.inl ⟨_, member, Scope.resolve?_eq_none_iff.2 missing, rfl⟩))
    · exact .inr (.inr (.inr (.inl ⟨_, member, here, rfl⟩)))
    · exact .inl ⟨_, isTarget, refuses⟩
    · exact .inr (.inr (.inr (.inr ⟨isLast, isGuard, rfl⟩)))
    · exact .inr (.inl ⟨_, member, by simp [Surrounding.fault?, missing]⟩)
    · exact .inr (.inl ⟨_, member, by simp [Surrounding.fault?, missing]⟩)
    · exact .inr (.inl ⟨_, member, by simp [Surrounding.fault?, missing]⟩)
  · rintro (⟨target, isTarget, refuses⟩ | faults | misses | ⟨name, member, here, rfl⟩ |
      ⟨isLast, isGuard, rfl⟩)
    · exact .target isTarget refuses
    · exact faults.refuses
    · exact misses.refuses
    · exact .redeclared member here
    · exact .guard isLast isGuard

theorem Clause.scope_of_emit {clause : Clause} {emitted : List Emitted} {extended : Scope}
    (emits : clause.emit vocabulary outer scope last = .ok (emitted, extended)) :
    extended = scope ++ clause.declares := by
  obtain ⟨body, rfl, unrolls⟩ | ⟨test, fallback, _, _, rfl, _, rfl, _⟩ :=
    Clause.unrolls_of_emit emits
  · cases unrolls with
    | define _ declared _ => exact (Scope.declareAll_eq_ok declared).1
    | expression | assign | update | updateWith => exact (List.append_nil _).symm
  · exact (List.append_nil _).symm

/-- The names of a new variable's target mean that variable. -/
theorem Target.emit_declared_reports (target : Target) :
    (target.emit ⟨vocabulary, (scope ++ target.names) :: outer⟩).Reports fun _ => False := by
  refine target.emit_reports.imp fun fault => iff_false_intro ?_
  rintro ⟨name, member, missing, _⟩
  exact Scope.resolve?_eq_none_iff.1 missing _ (.head _) (List.mem_append_right _ member)

theorem Clause.emit_reports (clause : Clause) :
    (clause.emit vocabulary outer scope last).Reports
      (clause.Refuses vocabulary outer scope last) := by
  cases clause with
  | expression result =>
      refine (result.emit_reports.map _).imp fun fault => ?_
      simp [Clause.refuses_iff, Clause.parts, Clause.operands, Clause.target?, Clause.updates,
        Clause.declares, Clause.isGuard, Surrounding.Misses]
  | define target value =>
      have declares (distinct : target.names.Nodup) (emitted : List Emitted) :
          (do
            let extended ← scope.declareAll target.names
            let places ← target.emit ⟨vocabulary, extended :: outer⟩
            return (emitted ++ places ++ [.instruction .define, closing last], extended) :
              Outcome (List Emitted × Scope)).Reports fun fault =>
            (∃ name, name ∈ target.names ∧ name ∈ scope ∧ fault = .alreadyDefined name) ∨ False :=
        (Scope.declareAll_reports_of_nodup distinct).bind fun extended declared => by
          cases (Scope.declareAll_eq_ok declared).1
          exact target.emit_declared_reports.map _
      refine (Outcome.Reports.bind target.check_reports fun _ checked =>
        Outcome.Reports.bind value.emit_reports fun emitted _ =>
          declares ?_ emitted).imp fun fault => ?_
      · have sound := target.check_reports
        rw [checked] at sound
        by_contra twice
        exact sound (.repeatedTarget "") (.repeated twice)
      · simp [Clause.refuses_iff, Clause.parts, Clause.operands, Clause.target?, Clause.updates,
          Clause.declares, Clause.isGuard, Surrounding.Misses]
  | assign target value =>
      refine (Outcome.Reports.bind target.check_reports fun _ _ =>
        Outcome.Reports.bind value.emit_reports fun _ _ =>
          target.emit_reports.map _).imp fun fault => ?_
      simp [Clause.refuses_iff, Clause.parts, Clause.operands, Clause.target?, Clause.updates,
        Clause.declares, Clause.isGuard]
  | modify name function argument =>
      cases argument with
      | none =>
          refine (Outcome.Reports.bind function.emit_reports fun _ _ =>
            (Target.name name).emit_reports.map _).imp fun fault => ?_
          simp [Clause.refuses_iff, Clause.parts, Clause.operands, Clause.target?, Clause.updates,
            Clause.declares, Clause.isGuard, Target.names]
      | some argument =>
          refine (Outcome.Reports.bind argument.emit_reports fun _ _ =>
            Outcome.Reports.bind function.emit_reports fun _ _ =>
              (Target.name name).emit_reports.map _).imp fun fault => ?_
          simp [Clause.refuses_iff, Clause.parts, Clause.operands, Clause.target?, Clause.updates,
            Clause.declares, Clause.isGuard, Target.names, or_assoc]
  | guard test fallback =>
      cases last with
      | true => exact .guard rfl rfl
      | false =>
          refine (Outcome.Reports.bind test.emit_reports fun _ _ =>
            fallback.emit_reports.map _).imp fun fault => ?_
          simp [Clause.refuses_iff, Clause.parts, Clause.operands, Clause.target?, Clause.updates,
            Clause.declares, Surrounding.Misses]

/-- What is wrong with statements: that one of them is refused after those before it. -/
def Statement.Refuse (vocabulary : Vocabulary) (outer : List Scope) (scope : Scope)
    (statements : List Statement) (fault : Fault) : Prop :=
  ∃ earlier statement later, statements = earlier ++ statement :: later ∧
    statement.clause.Refuses vocabulary outer (scope ++ declaredBy earlier) later.isEmpty fault

theorem Statement.refuse_nil (fault : Fault) :
    ¬Statement.Refuse vocabulary outer scope [] fault := by
  rintro ⟨earlier, statement, later, split, _⟩
  exact List.append_ne_nil_of_right_ne_nil earlier (List.cons_ne_nil statement later) split.symm

theorem Statement.refuse_cons (statement : Statement) (rest : List Statement) (fault : Fault) :
    Statement.Refuse vocabulary outer scope (statement :: rest) fault ↔
      statement.clause.Refuses vocabulary outer scope rest.isEmpty fault ∨
        Statement.Refuse vocabulary outer (scope ++ statement.clause.declares) rest fault := by
  constructor
  · rintro ⟨earlier, refused, later, split, refuses⟩
    cases earlier with
    | nil =>
        obtain ⟨rfl, rfl⟩ := List.cons.inj split
        exact .inl (by simpa [declaredBy] using refuses)
    | cons first earlier =>
        obtain ⟨rfl, rfl⟩ := List.cons.inj split
        refine .inr ⟨earlier, refused, later, rfl, ?_⟩
        simpa [declaredBy] using refuses
  · rintro (refuses | ⟨earlier, refused, later, rfl, refuses⟩)
    · exact ⟨[], statement, rest, rfl, by simpa [declaredBy] using refuses⟩
    · exact ⟨statement :: earlier, refused, later, rfl, by simpa [declaredBy] using refuses⟩

theorem Statement.scope_of_emitAll {statements : List Statement} {located : List Located}
    {whole : Scope}
    (emits : Statement.emitAll vocabulary outer scope statements = .ok (located, whole)) :
    whole = scope ++ declaredBy statements := by
  induction statements generalizing scope located with
  | nil =>
      cases emits
      exact (List.append_nil _).symm
  | cons statement rest inductionHypothesis =>
      obtain ⟨emitted, extended, others, clauseEmits, restEmit, rfl⟩ :=
        Statement.emitAll_cons_eq_ok emits
      have first := Clause.scope_of_emit clauseEmits
      rw [inductionHypothesis restEmit, first, List.append_assoc]
      rfl

theorem Statement.emitAll_reports (statements : List Statement) :
    (Statement.emitAll vocabulary outer scope statements).Reports
      (Statement.Refuse vocabulary outer scope statements) := by
  induction statements generalizing scope with
  | nil => exact Statement.refuse_nil
  | cons statement rest inductionHypothesis =>
      refine (Outcome.Reports.bind (statement.clause.emit_reports.within statement.span)
        fun first emitted => ?_).imp fun fault => (Statement.refuse_cons statement rest fault).symm
      have extended := Clause.scope_of_emit (Outcome.eq_ok_of_within emitted)
      rw [← extended]
      exact inductionHypothesis.map _

/-! ### Blocks -/

theorem Block.scope_of_emit {block : Block} {located : List Located} {whole : Scope}
    (emits : block.emit vocabulary outer scope = .ok (located, whole)) :
    whole = scope ++ block.declares := by
  obtain ⟨statements⟩ := block
  cases statements with
  | nil =>
      cases emits
      exact (List.append_nil _).symm
  | cons statement rest => exact Statement.scope_of_emitAll emits

theorem Block.emit_reports (block : Block) :
    (block.emit vocabulary outer scope).Reports
      (Statement.Refuse vocabulary outer scope block.statements) := by
  obtain ⟨statements⟩ := block
  cases statements with
  | nil => exact Statement.refuse_nil
  | cons statement rest => exact Statement.emitAll_reports (statement :: rest)

end Statements

end PointFree
