import PointFree.Proofs.Spans

/-!
Contract: where a text is refused.

A text is refused at one of its characters, or at its end, while it is taken apart, and for
a statement while roles are assigned: the innermost statement around what is wrong. Every
refusal is of the kind for reading.
-/

namespace PointFree

/-! ### Outcomes that fail in some ways only -/

namespace Outcome

variable {α β : Type} {allowed allowed' : Failure → Prop} {outcome : Outcome α}

/-- The outcome does not fail in a way that is not allowed. -/
def Fails (allowed : Failure → Prop) : Outcome α → Prop
  | .ok _ => True
  | .error failure => allowed failure

theorem Fails.imp (fails : outcome.Fails allowed)
    (weaken : ∀ failure, allowed failure → allowed' failure) : outcome.Fails allowed' := by
  cases outcome with
  | ok => trivial
  | error failure => exact weaken failure fails

theorem Fails.bind {next : α → Outcome β} (first : outcome.Fails allowed)
    (rest : ∀ value, outcome = .ok value → (next value).Fails allowed) :
    (outcome >>= next).Fails allowed := by
  cases outcome with
  | ok value => exact rest value rfl
  | error => exact first

theorem Fails.map (fails : outcome.Fails allowed) (change : α → β) :
    Outcome.Fails allowed (outcome.map change) := by
  cases outcome with
  | ok => trivial
  | error => exact fails

/-- What fails nowhere in particular fails within the given span. -/
theorem Fails.within {span : Option Span} (fails : outcome.Fails fun failure =>
    allowed (failure.within span)) : (Outcome.within span outcome).Fails allowed := by
  cases outcome with
  | ok => trivial
  | error => exact fails

theorem Fails.mapM {change : α → Outcome β} {items : List α}
    (each : ∀ item ∈ items, (change item).Fails allowed) : (items.mapM change).Fails allowed := by
  induction items with
  | nil => trivial
  | cons item rest inductionHypothesis =>
      obtain ⟨here, later⟩ := List.forall_mem_cons.1 each
      rw [List.mapM_cons]
      refine here.bind fun _ _ => ?_
      exact (inductionHypothesis later).bind fun _ _ => trivial

end Outcome

open Outcome

/-! ### Characters -/

/-- The failure is a refusal at a place that some of the characters lead up to. -/
def Failure.StopsIn (letters : List Char) (failure : Failure) : Prop :=
  failure.kind = .parse ∧ ∃ before after span, letters = before ++ after ∧
    failure.span = some span ∧ span.start = byteLength before

section Characters

variable {before rest : List Char}

theorem Failure.stopsIn_of_fault (before rest : List Char) (stop : Nat) {fault : Fault}
    (kind : fault.kind = .parse) :
    Failure.StopsIn (before ++ rest) ⟨fault, some ⟨byteLength before, stop⟩⟩ :=
  ⟨kind, before, rest, _, rfl, rfl, rfl⟩

/-- A token that does not fit is refused where it stands. -/
theorem Level.accept_fails {placed : Placed} (here : placed.start = byteLength before)
    (level : Level) (outer : List Level) :
    (level.accept placed outer).Fails (Failure.StopsIn (before ++ rest)) := by
  have unexpected (α : Type) : Fails (Failure.StopsIn (before ++ rest))
      (unexpectedAt placed.start placed.letter : Outcome α) := by
    rw [here]
    exact Failure.stopsIn_of_fault before rest _ rfl
  rw [accept.eq_def]
  dsimp only
  split
  · trivial
  · split
    · rw [here]
      exact Failure.stopsIn_of_fault before rest _ rfl
    · trivial
  · split
    · exact unexpected _
    · split
      · trivial
      · exact unexpected _
  · split
    · exact unexpected _
    · trivial
  · split
    · exact unexpected _
    · split
      · exact unexpected _
      · trivial
  · split
    · exact unexpected _
    · split
      · trivial
      · exact unexpected _

theorem Level.finish_fails (before rest : List Char) (trimmed : Nat) (level : Level)
    (outer : List Level) :
    (level.finish (byteLength before) trimmed outer).Fails (Failure.StopsIn (before ++ rest)) := by
  rw [finish.eq_def]
  split
  · exact Failure.stopsIn_of_fault before rest _ rfl
  · split
    · trivial
    · exact Failure.stopsIn_of_fault before rest _ rfl

/-- Wherever the reading of tokens has got to, it is at one of the characters. -/
theorem Level.acceptAll_fails (letters : List Char) (skip trimmed : Nat) (level : Level)
    (outer : List Level) (before : List Char) :
    (acceptAll (Tokens.ofLetters skip (byteLength before) trimmed letters) level outer).Fails
      (Failure.StopsIn (before ++ letters)) := by
  induction letters generalizing skip trimmed level outer before with
  | nil => exact Level.finish_fails before [] trimmed level outer
  | cons letter rest inductionHypothesis =>
      have onward := fun skip trimmed level outer =>
        inductionHypothesis skip trimmed level outer (before ++ [letter])
      rw [byteLength_append, byteLength_cons, List.append_assoc] at onward
      cases skip with
      | succ skip => exact onward skip _ level outer
      | zero =>
          rw [Tokens.ofLetters]
          split
          · exact onward 0 _ level outer
          · split
            · exact onward _ _ level outer
            · split
              · rw [acceptAll]
                refine (Level.accept_fails rfl level outer).bind fun levels _ => ?_
                exact onward _ _ levels.1 levels.2
              · next offset _ =>
                  have split : before ++ letter :: rest = before ++ (letter :: rest).take offset ++
                      (letter :: rest).drop offset := by
                    rw [List.append_assoc, List.take_append_drop]
                  rw [split, ← byteLength_append]
                  cases (letter :: rest)[offset]? with
                  | some found => exact Failure.stopsIn_of_fault _ _ _ rfl
                  | none => exact Failure.stopsIn_of_fault _ _ _ rfl

theorem rawStatements_fails (source : String) :
    (rawStatements source).Fails (Failure.StopsIn source.toList) :=
  Level.acceptAll_fails source.toList 0 0 (.ofBracket .block) [] []

end Characters

/-! ### Roles -/

/-- The fault arises where roles are assigned. -/
def Fault.isOfRoles : Fault → Bool
  | modifiedExpression | modifiedByData _ | malformedAssignment => true
  | destructuredExpression | unassignable | strandedModifier _ => true
  | strayAssignment | strayGuard => true
  | modifierWithoutOperand _ | modifierWithoutRightOperand _ => true
  | emptyExpression | adjacentValues | dataInTrain => true
  | _ => false

theorem Fault.kind_of_isOfRoles {fault : Fault} (ofRoles : fault.isOfRoles = true) :
    fault.kind = .parse := by
  cases fault <;> first | rfl | cases ofRoles

section Roles

variable {allowed : Failure → Prop}
mutual

theorem Atom.target_fails (bare : ∀ fault, fault.isOfRoles = true → allowed (.ofFault fault))
    (atom : Atom) : atom.target.Fails allowed := by
  match atom with
  | .name _ => trivial
  | .strand atoms => exact (Atom.targets_fails bare atoms).map _
  | .list elements => exact (Atom.elementTargets_fails bare elements).map _
  | .paren _ | .block _ | .number _ | .character _ | .string _ | .implicit _ _ | .system _
  | .primitive _ | .oneModifier _ | .twoModifier _ | .define | .assign | .guard =>
      exact bare _ rfl
termination_by structural atom

theorem Atom.targets_fails (bare : ∀ fault, fault.isOfRoles = true → allowed (.ofFault fault))
    (atoms : List Atom) : (Atom.targets atoms).Fails allowed := by
  match atoms with
  | [] => trivial
  | atom :: atoms =>
      exact (Atom.target_fails bare atom).bind fun _ _ =>
        (Atom.targets_fails bare atoms).bind fun _ _ => trivial
termination_by structural atoms

theorem Atom.elementTargets_fails
    (bare : ∀ fault, fault.isOfRoles = true → allowed (.ofFault fault))
    (elements : List (List Atom)) : (Atom.elementTargets elements).Fails allowed := by
  match elements with
  | [] => trivial
  | element :: elements =>
      exact (Atom.soleTarget_fails bare element).bind fun _ _ =>
        (Atom.elementTargets_fails bare elements).bind fun _ _ => trivial
termination_by structural elements

theorem Atom.soleTarget_fails (bare : ∀ fault, fault.isOfRoles = true → allowed (.ofFault fault))
    (atoms : List Atom) : (Atom.soleTarget atoms).Fails allowed := by
  match atoms with
  | [] => exact bare _ rfl
  | [atom] => exact Atom.target_fails bare atom
  | _ :: _ :: _ => exact bare _ rfl
termination_by structural atoms

end

variable (bare : ∀ fault, fault.isOfRoles = true → allowed (.ofFault fault))

include bare

theorem bindModifiers_fails (items : List Item) (terms : List Term) :
    (bindModifiers items terms).Fails allowed := by
  induction items, terms using bindModifiers.induct with
  | case1 => trivial
  | case2 _ _ _ inductionHypothesis => exact inductionHypothesis
  | case3 | case4 => exact bare _ rfl
  | case5 _ _ _ _ inductionHypothesis => exact inductionHypothesis
  | case6 _ _ _ _ _ inductionHypothesis => exact inductionHypothesis
  | case7 modifier rest left terms last =>
      rw [bindModifiers]
      · exact bare _ rfl
      · exact last

theorem application_fails (right : Expression) (terms : List Term) :
    (application right terms).Fails allowed := by
  induction right, terms using application.induct with
  | case1 => trivial
  | case2 => exact bare _ rfl
  | case3 _ _ _ _ inductionHypothesis => exact inductionHypothesis
  | case4 right function rest last inductionHypothesis =>
      rw [application]
      · exact inductionHypothesis
      · exact last

theorem train_fails (right : Expression) (terms : List Term) :
    (train right terms).Fails allowed := by
  induction right, terms using train.induct with
  | case1 => trivial
  | case2 => exact bare _ rfl
  | case3 => trivial
  | case4 _ _ _ _ _ inductionHypothesis => exact inductionHypothesis

theorem termOfItems_fails (items : List Item) : (termOfItems items).Fails allowed := by
  refine (bindModifiers_fails bare items []).bind fun terms _ => ?_
  match terms with
  | [] => exact bare _ rfl
  | ⟨right, .data⟩ :: rest => exact (application_fails bare right rest).map _
  | ⟨right, .function⟩ :: rest => exact (train_fails bare right rest).map _

theorem strandEntry_fails (item : Item) : (strandEntry item).Fails allowed := by
  cases item with
  | term => trivial
  | oneModifier | twoModifier => exact bare _ rfl

/-! ### Statements -/

variable {readings : Readings}

theorem Readings.term_fails (each : ∀ reading ∈ readings, reading.2.Fails allowed) :
    readings.term.Fails allowed :=
  (Fails.mapM each).bind fun items _ => termOfItems_fails bare items

theorem Readings.expression_fails (each : ∀ reading ∈ readings, reading.2.Fails allowed) :
    readings.expression.Fails allowed :=
  (Readings.term_fails bare each).map _

theorem modification_fails (first : Atom) {function after : Readings}
    (functions : ∀ reading ∈ function, reading.2.Fails allowed)
    (afters : ∀ reading ∈ after, reading.2.Fails allowed) :
    (modification first function after).Fails allowed := by
  rw [modification.eq_def]
  split
  · refine (Readings.term_fails bare functions).bind fun operator _ => ?_
    split
    · exact bare _ rfl
    · split
      · trivial
      · exact (Readings.expression_fails bare afters).bind fun _ _ => trivial
  · exact bare _ rfl

theorem assignment_fails {before after : Readings} (arrow : Atom)
    (befores : ∀ reading ∈ before, reading.2.Fails allowed)
    (afters : ∀ reading ∈ after, reading.2.Fails allowed) :
    (assignment before arrow after).Fails allowed := by
  have valued (atom : Atom) (change : Target → Expression → Clause) :
      Fails allowed (do
        let target ← atom.target
        let value ← after.expression
        return change target value : Outcome Clause) :=
    (Atom.target_fails bare atom).bind fun _ _ =>
      (Readings.expression_fails bare afters).bind fun _ _ => trivial
  rw [assignment.eq_def]
  split
  · exact valued _ _
  · exact valued _ _
  · exact modification_fails bare _ (fun reading member => befores reading (.tail _ member)) afters
  · exact bare _ rfl

/-- A statement fails where one of its parts does, or by itself. -/
theorem Readings.clause_fails (each : ∀ reading ∈ readings, reading.2.Fails allowed) :
    readings.clause.Fails allowed := by
  have parted (test : Atom × Outcome Item → Bool) {before after : Readings}
      (parts : readings.span test = (before, after)) :
      (∀ reading ∈ before, reading.2.Fails allowed) ∧
        ∀ reading ∈ after, reading.2.Fails allowed := by
    rw [List.span_eq_takeWhile_dropWhile] at parts
    obtain ⟨rfl, rfl⟩ := Prod.mk.inj parts
    exact ⟨fun reading member => each reading (List.takeWhile_subset _ member),
      fun reading member => each reading (List.dropWhile_subset _ member)⟩
  rw [Readings.clause]
  split
  · next before guard after parts =>
      obtain ⟨befores, afters⟩ := parted _ parts
      refine (Readings.expression_fails bare befores).bind fun _ _ => ?_
      refine (Readings.expression_fails bare fun reading member =>
        afters reading (.tail _ member)).bind fun _ _ => trivial
  · split
    · next before arrow _ after parts =>
        obtain ⟨befores, afters⟩ := parted _ parts
        exact assignment_fails bare arrow befores fun reading member =>
          afters reading (.tail _ member)
    · exact (Readings.expression_fails bare each).map _

end Roles

/-! ### Bodies -/

/-- The failure arises where roles are assigned, and if it has a place, that is a statement of one
of the bodies. -/
def Failure.IsMisreading (bodies : List (List RawStatement)) (failure : Failure) : Prop :=
  failure.fault.isOfRoles = true ∧
    ∀ span, failure.span = some span → ∃ body ∈ bodies, ∃ raw ∈ body, raw.span = span

namespace Failure.IsMisreading

variable {bodies more : List (List RawStatement)} {failure : Failure}

theorem ofFault {fault : Fault} (ofRoles : fault.isOfRoles = true) :
    IsMisreading bodies (.ofFault fault) :=
  ⟨ofRoles, nofun⟩

theorem mono (misread : failure.IsMisreading bodies) (subset : bodies ⊆ more) :
    failure.IsMisreading more := by
  refine ⟨misread.1, fun span isSpan => ?_⟩
  obtain ⟨body, isBody, found⟩ := misread.2 span isSpan
  exact ⟨body, subset isBody, found⟩

/-- In a statement the failure has a place: that statement, or one within it. -/
theorem within (misread : failure.IsMisreading bodies) (span : Span) :
    (failure.within (some span)).fault.isOfRoles = true ∧ ∃ place,
      (failure.within (some span)).span = some place ∧
        (place = span ∨ ∃ body ∈ bodies, ∃ raw ∈ body, raw.span = place) := by
  obtain ⟨fault, place⟩ := failure
  cases place with
  | none => exact ⟨misread.1, span, rfl, .inl rfl⟩
  | some place => exact ⟨misread.1, place, rfl, .inr (misread.2 place rfl)⟩

end Failure.IsMisreading

mutual

theorem Atom.item_fails (atom : Atom) : atom.item.Fails (Failure.IsMisreading atom.bodies) := by
  match atom with
  | .paren atoms =>
      exact (Readings.term_fails (fun _ => .ofFault) (Atom.readings_fails atoms)).map _
  | .list elements => exact (Atom.elementExpressions_fails elements).bind fun _ _ => trivial
  | .strand atoms => exact (Atom.strandExpressions_fails atoms).bind fun _ _ => trivial
  | .block statements =>
      refine ((RawStatement.readAll_fails statements).imp fun failure => ?_).bind fun _ _ => trivial
      rintro ⟨ofRoles, body, isBody, raw, isRaw, place⟩
      rw [RawStatement.bodiesWithin, ← RawStatement.bodiesOfAll_eq_flatMap] at isBody
      refine ⟨ofRoles, fun span isSpan => ⟨body, isBody, raw, isRaw, ?_⟩⟩
      exact Option.some.inj (place.symm.trans isSpan)
  | .define | .assign | .guard => exact .ofFault rfl
  | .number _ | .character _ | .string _ | .name _ | .implicit _ _ | .system _ | .primitive _
  | .oneModifier _ | .twoModifier _ => trivial
termination_by structural atom

theorem Atom.readings_fails (atoms : List Atom) : ∀ reading ∈ Atom.readings atoms,
    reading.2.Fails (Failure.IsMisreading (Atom.bodiesOfAll atoms)) := by
  match atoms with
  | [] => exact List.forall_mem_nil _
  | atom :: atoms =>
      refine List.forall_mem_cons.2 ⟨?_, fun reading member => ?_⟩
      · exact (Atom.item_fails atom).imp fun _ misread =>
          misread.mono (List.subset_append_left _ _)
      · exact (Atom.readings_fails atoms reading member).imp fun _ misread =>
          misread.mono (List.subset_append_right _ _)
termination_by structural atoms

theorem Atom.elementExpressions_fails (elements : List (List Atom)) :
    (Atom.elementExpressions elements).Fails
      (Failure.IsMisreading (Atom.bodiesOfElements elements)) := by
  match elements with
  | [] => trivial
  | element :: elements =>
      refine ((Readings.expression_fails (fun _ => .ofFault)
        (Atom.readings_fails element)).imp fun _ misread => ?_).bind fun _ _ => ?_
      · exact misread.mono (List.subset_append_left _ _)
      · refine ((Atom.elementExpressions_fails elements).imp fun _ misread => ?_).bind
          fun _ _ => trivial
        exact misread.mono (List.subset_append_right _ _)
termination_by structural elements

theorem Atom.strandExpressions_fails (atoms : List Atom) :
    (Atom.strandExpressions atoms).Fails
      (Failure.IsMisreading (Atom.bodiesOfAll atoms)) := by
  match atoms with
  | [] => trivial
  | atom :: atoms =>
      refine ((Atom.item_fails atom).imp fun _ misread => ?_).bind fun item _ => ?_
      · exact misread.mono (List.subset_append_left _ _)
      · refine (strandEntry_fails (fun _ => .ofFault) item).bind fun _ _ => ?_
        refine ((Atom.strandExpressions_fails atoms).imp fun _ misread => ?_).bind
          fun _ _ => trivial
        exact misread.mono (List.subset_append_right _ _)
termination_by structural atoms

/-- A statement is refused at itself or at a statement within it. -/
theorem RawStatement.read_fails (raw : RawStatement) : raw.read.Fails fun failure =>
    failure.fault.isOfRoles = true ∧ ∃ place, failure.span = some place ∧
      (place = raw.span ∨ ∃ body ∈ raw.bodies, ∃ inner ∈ body, inner.span = place) := by
  match raw with
  | .mk atoms span =>
      refine Fails.map (Fails.within ?_) _
      exact (Readings.clause_fails (fun _ => .ofFault) (Atom.readings_fails atoms)).imp
        fun _ misread => misread.within span
termination_by structural raw

theorem RawStatement.readAll_fails (raws : List RawStatement) :
    (RawStatement.readAll raws).Fails fun failure => failure.fault.isOfRoles = true ∧
      ∃ body ∈ RawStatement.bodiesWithin raws, ∃ raw ∈ body, failure.span = some raw.span := by
  match raws with
  | [] => trivial
  | raw :: raws =>
      refine ((RawStatement.read_fails raw).imp fun failure => ?_).bind fun _ _ => ?_
      · rintro ⟨ofRoles, place, isPlace, rfl | ⟨body, isBody, inner, isInner, rfl⟩⟩
        · exact ⟨ofRoles, _, .head _, raw, .head _, isPlace⟩
        · exact ⟨ofRoles, body, .tail _ (List.mem_append_left _ isBody), inner, isInner, isPlace⟩
      · refine ((RawStatement.readAll_fails raws).imp fun failure => ?_).bind fun _ _ => trivial
        rintro ⟨ofRoles, body, isBody, inner, isInner, isPlace⟩
        rcases List.mem_cons.1 isBody with rfl | isBody
        · exact ⟨ofRoles, _, .head _, inner, .tail _ isInner, isPlace⟩
        · exact ⟨ofRoles, body, .tail _ (List.mem_append_right _ isBody), inner, isInner, isPlace⟩
termination_by structural raws

end

/-- A source that is no program is refused at one of its characters or at its end. -/
theorem Block.parse_fails (source : String) :
    (parse source).Fails (Failure.StopsIn source.toList) := by
  refine (rawStatements_fails source).bind fun raws isRaw => ?_
  refine ((RawStatement.readAll_fails raws).imp fun failure => ?_).bind fun _ _ => trivial
  rintro ⟨ofRoles, body, isBody, raw, isInner, isPlace⟩
  obtain ⟨before, text, after, _, same, _, span, _⟩ :=
    (orderly_of_rawStatements isRaw body isBody).faithful raw isInner
  refine ⟨Fault.kind_of_isOfRoles ofRoles, before, text ++ after, raw.span, ?_, isPlace,
    by rw [span]⟩
  rw [same, List.append_assoc]

end PointFree
