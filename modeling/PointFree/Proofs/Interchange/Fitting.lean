import Mathlib.Tactic.SplitIfs
import PointFree.Proofs.Interchange.Encoding

/-!
Contract: a program is written with no more nesting than it was read from.

Each part of a program may be laid out in several ways, and it is written in the one that nests
least. The natural numbers in a document are places in a source, which come from it as well.
-/

namespace PointFree.Json

/-! ### Room -/

mutual

/-- Within the document no more lists and objects are open at once than there is room for, and
natural numbers are words. -/
def Fits (room : Nat) : Json → Prop
  | .number _ (some natural) => natural ≤ Decimal.wordMax
  | .list items => 0 < room ∧ AllFit (room - 1) items
  | .object fields => 0 < room ∧ FieldsFit (room - 1) fields
  | _ => True
termination_by structural json => json

def AllFit (room : Nat) : List Json → Prop
  | [] => True
  | item :: items => item.Fits room ∧ AllFit room items
termination_by structural items => items

def FieldsFit (room : Nat) : List (String × Json) → Prop
  | [] => True
  | (_, value) :: fields => value.Fits room ∧ FieldsFit room fields
termination_by structural fields => fields

end

section Fits

variable {room : Nat}

@[simp] theorem fits_null : null.Fits room :=
  trivial

@[simp] theorem fits_string (text : String) : (string text).Fits room :=
  trivial

@[simp] theorem fits_ofFloat (value : Float) : (ofFloat value).Fits room :=
  trivial

@[simp] theorem fits_ofNat (natural : Nat) :
    (ofNat natural).Fits room ↔ natural ≤ Decimal.wordMax :=
  Iff.rfl

@[simp] theorem fits_list (items : List Json) :
    (list items).Fits (room + 1) ↔ AllFit room items := by
  simp [Fits]

@[simp] theorem fits_object (fields : List (String × Json)) :
    (object fields).Fits (room + 1) ↔ FieldsFit room fields := by
  simp [Fits]

@[simp] theorem fieldsFit_cons (key : String) (value : Json) (fields : List (String × Json)) :
    FieldsFit room ((key, value) :: fields) ↔ value.Fits room ∧ FieldsFit room fields :=
  Iff.rfl

@[simp] theorem fieldsFit_nil : FieldsFit room [] :=
  trivial

@[simp] theorem allFit_cons (item : Json) (items : List Json) :
    AllFit room (item :: items) ↔ item.Fits room ∧ AllFit room items :=
  Iff.rfl

@[simp] theorem allFit_nil : AllFit room [] :=
  trivial

theorem Fits.exists_room {items : List Json} (fits : (list items).Fits room) :
    ∃ inner, room = inner + 1 ∧ AllFit inner items :=
  ⟨room - 1, (Nat.sub_add_cancel fits.1).symm, fits.2⟩

theorem Fits.exists_room_object {fields : List (String × Json)} (fits : (object fields).Fits room) :
    ∃ inner, room = inner + 1 ∧ FieldsFit inner fields :=
  ⟨room - 1, (Nat.sub_add_cancel fits.1).symm, fits.2⟩

theorem FieldsFit.of_lookup {key : String} {fields : List (String × Json)} {value : Json}
    (fit : FieldsFit room fields) (found : field? key fields = some value) : value.Fits room := by
  induction fields with
  | nil => cases found
  | cons first fields inductionHypothesis =>
      obtain ⟨other, here⟩ := first
      rw [field?, List.lookup_cons] at found
      split at found
      · cases found
        exact fit.1
      · exact inductionHypothesis fit.2 found

end Fits

/-! ### Spans and targets -/

section Reading

variable {room : Nat}

theorem natural_le {json : Json} {natural : Nat} (fits : json.Fits room)
    (reads : json.natural? = some natural) : natural ≤ Decimal.wordMax := by
  cases json with
  | number value found =>
      cases reads
      exact fits
  | _ => cases reads

theorem spanOf?_fits {start stop : Json} {span : Span} (starts : start.Fits room)
    (stops : stop.Fits room) (reads : spanOf? start stop = some span) :
    span.toJson.Fits (room + 1) := by
  simp only [spanOf?, Option.bind_eq_bind, Option.bind_eq_some_iff] at reads
  obtain ⟨first, isFirst, last, isLast, same⟩ := reads
  cases same
  simp [Span.toJson, natural_le starts isFirst, natural_le stops isLast]

theorem span?_fits {json : Json} {span : Span} (fits : json.Fits room)
    (reads : json.span? = some span) : span.toJson.Fits room := by
  unfold span? at reads
  split at reads
  · next start stop =>
      obtain ⟨inner, rfl, inside⟩ := fits.exists_room
      exact spanOf?_fits inside.1 inside.2.1 reads
  · next fields =>
      obtain ⟨inner, rfl, inside⟩ := fits.exists_room_object
      simp only [Option.bind_eq_bind, Option.bind_eq_some_iff] at reads
      obtain ⟨start, isStart, stop, isStop, reads⟩ := reads
      exact spanOf?_fits (inside.of_lookup isStart) (inside.of_lookup isStop) reads
  · cases reads

theorem optionalSpan?_fits {json : Json} {span : Option Span} (fits : json.Fits room)
    (reads : json.optionalSpan? = some span) : (optionalSpanToJson span).Fits room := by
  unfold optionalSpan? at reads
  split at reads
  · cases reads
    exact fits_null
  · obtain ⟨found, isSpan, rfl⟩ := Option.map_eq_some_iff.1 reads
    exact span?_fits fits isSpan

theorem optionalSpanIn?_fits {fields : List (String × Json)} {span : Option Span}
    (fits : FieldsFit room fields) (reads : optionalSpanIn? fields = some span) :
    (optionalSpanToJson span).Fits room := by
  unfold optionalSpanIn? at reads
  split at reads
  · cases reads
    exact fits_null
  · next found isFound => exact optionalSpan?_fits (fits.of_lookup isFound) reads

theorem exists_of_target? {json : Json} {target : Target} (reads : json.target? = some target) :
    ∃ tag content, json = .object [(tag, content)] := by
  unfold target? at reads
  split at reads
  · exact ⟨_, _, rfl⟩
  · exact ⟨_, _, rfl⟩
  · cases reads

mutual

theorem target?_fits {room : Nat} (json : Json) {target : Target} (fits : json.Fits room)
    (reads : json.target? = some target) : target.toJson.Fits room := by
  match json with
  | .object [(tag, .string name)] =>
      obtain ⟨outer, rfl, _⟩ := fits.exists_room_object
      rw [target?] at reads
      split at reads
      · cases reads
        simp [Target.toJson]
      · cases reads
  | .object [(tag, .list items)] =>
      obtain ⟨outer, rfl, field⟩ := fits.exists_room_object
      obtain ⟨inner, rfl, inside⟩ := field.1.exists_room
      rw [target?] at reads
      split at reads
      · obtain ⟨targets, isTargets, rfl⟩ := Option.map_eq_some_iff.1 reads
        simp [Target.toJson, targets?_fit items inside isTargets]
      · cases reads
  | .null | .truth _ | .number _ _ | .string _ | .list _ | .object [] | .object [(_, .null)]
  | .object [(_, .truth _)] | .object [(_, .number _ _)] | .object [(_, .object _)] => cases reads
  | .object (_ :: _ :: _) =>
      obtain ⟨_, _, same⟩ := exists_of_target? reads
      cases same
termination_by structural json

theorem targets?_fit {room : Nat} (items : List Json) {targets : List Target}
    (fit : AllFit room items) (reads : targets? items = some targets) :
    AllFit room (Target.toJsons targets) := by
  match items with
  | [] =>
      cases reads
      trivial
  | item :: items =>
      simp only [targets?, Option.bind_eq_bind, Option.bind_eq_some_iff] at reads
      obtain ⟨first, isFirst, rest, isRest, same⟩ := reads
      cases same
      exact ⟨target?_fits item fit.1 isFirst, targets?_fit items fit.2 isRest⟩
termination_by structural items

end

theorem targetIn?_fits {fields : List (String × Json)} {target : Target}
    (fits : FieldsFit room fields) (reads : targetIn? fields = some target) :
    target.toJson.Fits room := by
  obtain ⟨found, isFound, reads⟩ := Option.bind_eq_some_iff.1 reads
  exact target?_fits found (fits.of_lookup isFound) reads

/-! ### Expressions and statements -/

theorem stringExpression?_fits {tag text : String} {expression : Expression}
    (reads : stringExpression? tag text = some expression) :
    expression.toJson.Fits (room + 1) := by
  unfold stringExpression? at reads
  split_ifs at reads
  · obtain ⟨letter, _, rfl⟩ := Option.map_eq_some_iff.1 reads
    simp [Expression.toJson]
  · cases reads
    simp [Expression.toJson]
  · cases reads
    simp [Expression.toJson]
  · cases reads
    simp [Expression.toJson]
  · obtain ⟨letter, _, rfl⟩ := Option.map_eq_some_iff.1 reads
    simp [Expression.toJson]

theorem exists_of_expression? {json : Json} {expression : Expression}
    (reads : json.expression? = some expression) :
    ∃ tag content, json = .object [(tag, content)] := by
  unfold expression? at reads
  split at reads
  · exact ⟨_, _, rfl⟩
  · cases reads

theorem exists_of_optionalExpression? {fields : List (String × Json)}
    {found : Option Expression} (reads : (object fields).optionalExpression? = some found) :
    ∃ tag content, fields = [(tag, content)] := by
  unfold optionalExpression? at reads
  split at reads
  · next same => cases same
  · next same =>
      cases same
      exact ⟨_, _, rfl⟩
  · cases reads

theorem exists_of_clause? {json : Json} {clause : Clause} (reads : json.clause? = some clause) :
    ∃ tag content, json = .object [(tag, content)] := by
  unfold clause? at reads
  split at reads
  · exact ⟨_, _, rfl⟩
  · cases reads

mutual

theorem expression?_fits {room : Nat} (json : Json) {expression : Expression}
    (fits : json.Fits room) (reads : json.expression? = some expression) :
    expression.toJson.Fits room := by
  match json with
  | .object [(tag, content)] =>
      obtain ⟨inner, rfl, field⟩ := fits.exists_room_object
      rw [expression?] at reads
      exact expressionAs?_fits content field.1 reads
  | .null | .truth _ | .number _ _ | .string _ | .list _ | .object [] => cases reads
  | .object (_ :: _ :: _) =>
      obtain ⟨_, _, same⟩ := exists_of_expression? reads
      cases same
termination_by structural json

theorem expressionAs?_fits {room : Nat} (json : Json) {tag : String} {expression : Expression}
    (fits : json.Fits room) (reads : json.expressionAs? tag = some expression) :
    expression.toJson.Fits (room + 1) := by
  match json with
  | .number value _ =>
      rw [expressionAs?] at reads
      split at reads
      · cases reads
        simp [Expression.toJson]
      · cases reads
  | .string text =>
      rw [expressionAs?] at reads
      exact stringExpression?_fits reads
  | .list items =>
      obtain ⟨inner, rfl, inside⟩ := fits.exists_room
      rw [expressionAs?] at reads
      split_ifs at reads
      · obtain ⟨found, isFound, rfl⟩ := Option.map_eq_some_iff.1 reads
        simp [Expression.toJson, expressions?_fit items inside isFound]
      · obtain ⟨found, isFound, rfl⟩ := Option.map_eq_some_iff.1 reads
        simp [Expression.toJson, Block.toJson, soleStatements?_fit items inside isFound]
  | .object fields =>
      obtain ⟨inner, rfl, inside⟩ := fits.exists_room_object
      have parts {key : String} {part : Expression}
          (found : expressionIn? key fields = some part) : part.toJson.Fits inner :=
        expressionIn?_fits fields inside found
      unfold expressionAs? at reads
      split_ifs at reads
      · obtain ⟨found, isFound, rfl⟩ := Option.map_eq_some_iff.1 reads
        simp [Expression.toJson, Block.toJson, statementsIn?_fit fields inside isFound]
      · obtain ⟨function, isFunction, right, isRight, same⟩ := by
          simpa only [Option.bind_eq_bind, Option.bind_eq_some_iff] using reads
        cases same
        simp [Expression.toJson, parts isFunction, parts isRight]
      · obtain ⟨function, isFunction, left, isLeft, right, isRight, same⟩ := by
          simpa only [Option.bind_eq_bind, Option.bind_eq_some_iff] using reads
        cases same
        simp [Expression.toJson, parts isFunction, parts isLeft, parts isRight]
      · obtain ⟨glyph, _, operand, isOperand, same⟩ := by
          simpa only [Option.bind_eq_bind, Option.bind_eq_some_iff] using reads
        cases same
        simp [Expression.toJson, parts isOperand]
      · obtain ⟨glyph, _, left, isLeft, right, isRight, same⟩ := by
          simpa only [Option.bind_eq_bind, Option.bind_eq_some_iff] using reads
        cases same
        simp [Expression.toJson, parts isLeft, parts isRight]
      · obtain ⟨left, isLeft, right, isRight, same⟩ := by
          simpa only [Option.bind_eq_bind, Option.bind_eq_some_iff] using reads
        cases same
        simp [Expression.toJson, parts isLeft, parts isRight]
      · obtain ⟨left, isLeft, middle, isMiddle, right, isRight, same⟩ := by
          simpa only [Option.bind_eq_bind, Option.bind_eq_some_iff] using reads
        cases same
        simp [Expression.toJson, parts isLeft, parts isMiddle, parts isRight]
      · split at reads
        · obtain ⟨variant, _, rfl⟩ := Option.map_eq_some_iff.1 reads
          simp [Expression.toJson]
        · cases reads
  | .null | .truth _ => cases reads
termination_by structural json

theorem expressions?_fit {room : Nat} (items : List Json) {expressions : List Expression}
    (fit : AllFit room items) (reads : expressions? items = some expressions) :
    AllFit room (Expression.toJsons expressions) := by
  match items with
  | [] =>
      cases reads
      trivial
  | item :: items =>
      simp only [expressions?, Option.bind_eq_bind, Option.bind_eq_some_iff] at reads
      obtain ⟨first, isFirst, rest, isRest, same⟩ := reads
      cases same
      exact ⟨expression?_fits item fit.1 isFirst, expressions?_fit items fit.2 isRest⟩
termination_by structural items

theorem expressionIn?_fits {room : Nat} (fields : List (String × Json)) {key : String}
    {expression : Expression} (fit : FieldsFit room fields)
    (reads : expressionIn? key fields = some expression) : expression.toJson.Fits room := by
  match fields with
  | [] => cases reads
  | (other, value) :: fields =>
      rw [expressionIn?] at reads
      split at reads
      · exact expression?_fits value fit.1 reads
      · exact expressionIn?_fits fields fit.2 reads
termination_by structural fields

theorem optionalExpression?_fits {room : Nat} (json : Json) {found : Option Expression}
    (fits : json.Fits room) (reads : json.optionalExpression? = some found) :
    ∀ expression ∈ found, expression.toJson.Fits room := by
  match json with
  | .null =>
      cases reads
      nofun
  | .object [(tag, content)] =>
      obtain ⟨inner, rfl, field⟩ := fits.exists_room_object
      obtain ⟨expression, isExpression, rfl⟩ := Option.map_eq_some_iff.1 reads
      rintro _ ⟨⟩
      exact expressionAs?_fits content field.1 isExpression
  | .truth _ | .number _ _ | .string _ | .list _ | .object [] => cases reads
  | .object (_ :: _ :: _) =>
      obtain ⟨_, _, same⟩ := exists_of_optionalExpression? reads
      cases same
termination_by structural json

theorem optionalExpressionIn?_fits {room : Nat} (fields : List (String × Json)) {key : String}
    {found : Option Expression} (fit : FieldsFit room fields)
    (reads : optionalExpressionIn? key fields = some found) :
    ∀ expression ∈ found, expression.toJson.Fits room := by
  match fields with
  | [] =>
      cases reads
      nofun
  | (other, value) :: fields =>
      rw [optionalExpressionIn?] at reads
      split at reads
      · exact optionalExpression?_fits value fit.1 reads
      · exact optionalExpressionIn?_fits fields fit.2 reads
termination_by structural fields

theorem clause?_fits {room : Nat} (json : Json) {clause : Clause} (fits : json.Fits room)
    (reads : json.clause? = some clause) : clause.toJson.Fits room := by
  match json with
  | .object [(tag, content)] =>
      obtain ⟨inner, rfl, field⟩ := fits.exists_room_object
      rw [clause?] at reads
      split at reads
      · obtain ⟨expression, isExpression, rfl⟩ := Option.map_eq_some_iff.1 reads
        simp [Clause.toJson, expression?_fits content field.1 isExpression]
      · exact clauseAs?_fits content field.1 reads
  | .null | .truth _ | .number _ _ | .string _ | .list _ | .object [] => cases reads
  | .object (_ :: _ :: _) =>
      obtain ⟨_, _, same⟩ := exists_of_clause? reads
      cases same
termination_by structural json

theorem clauseAs?_fits {room : Nat} (json : Json) {tag : String} {clause : Clause}
    (fits : json.Fits room) (reads : json.clauseAs? tag = some clause) :
    clause.toJson.Fits (room + 1) := by
  match json with
  | .object fields =>
      obtain ⟨inner, rfl, inside⟩ := fits.exists_room_object
      have parts {key : String} {part : Expression}
          (found : expressionIn? key fields = some part) : part.toJson.Fits inner :=
        expressionIn?_fits fields inside found
      rw [clauseAs?] at reads
      split_ifs at reads
      · obtain ⟨target, isTarget, value, isValue, same⟩ := by
          simpa only [Option.bind_eq_bind, Option.bind_eq_some_iff] using reads
        cases same
        simp [Clause.toJson, targetIn?_fits inside isTarget, parts isValue]
      · obtain ⟨target, isTarget, value, isValue, same⟩ := by
          simpa only [Option.bind_eq_bind, Option.bind_eq_some_iff] using reads
        cases same
        simp [Clause.toJson, targetIn?_fits inside isTarget, parts isValue]
      · obtain ⟨name, _, function, isFunction, argument, isArgument, same⟩ := by
          simpa only [Option.bind_eq_bind, Option.bind_eq_some_iff] using reads
        have arguments := optionalExpressionIn?_fits fields inside isArgument
        cases same
        cases argument with
        | none => simp [Clause.toJson, parts isFunction]
        | some argument => simp [Clause.toJson, parts isFunction, arguments argument rfl]
      · obtain ⟨test, isTest, fallback, isFallback, same⟩ := by
          simpa only [Option.bind_eq_bind, Option.bind_eq_some_iff] using reads
        cases same
        simp [Clause.toJson, parts isTest, parts isFallback]
  | .null | .truth _ | .number _ _ | .string _ | .list _ => cases reads
termination_by structural json

theorem clauseIn?_fits {room : Nat} (fields : List (String × Json)) {clause : Clause}
    (fit : FieldsFit room fields) (reads : clauseIn? fields = some clause) :
    clause.toJson.Fits room := by
  match fields with
  | [] => cases reads
  | (key, value) :: fields =>
      rw [clauseIn?] at reads
      split at reads
      · exact clause?_fits value fit.1 reads
      · exact clauseIn?_fits fields fit.2 reads
termination_by structural fields

theorem statement?_fits {room : Nat} (json : Json) {statement : Statement} (fits : json.Fits room)
    (reads : json.statement? = some statement) : statement.toJson.Fits room := by
  match json with
  | .list [kind] =>
      obtain ⟨inner, rfl, inside⟩ := fits.exists_room
      obtain ⟨clause, isClause, rfl⟩ := Option.map_eq_some_iff.1 reads
      simp [Statement.toJson, optionalSpanToJson, clause?_fits kind inside.1 isClause]
  | .list [kind, span] =>
      obtain ⟨inner, rfl, inside⟩ := fits.exists_room
      obtain ⟨clause, isClause, place, isPlace, same⟩ := by
        simpa only [statement?, Option.bind_eq_bind, Option.bind_eq_some_iff] using reads
      cases same
      simp [Statement.toJson, clause?_fits kind inside.1 isClause,
        optionalSpan?_fits inside.2.1 isPlace]
  | .object fields =>
      obtain ⟨inner, rfl, inside⟩ := fits.exists_room_object
      obtain ⟨clause, isClause, place, isPlace, same⟩ := by
        simpa only [statement?, Option.bind_eq_bind, Option.bind_eq_some_iff] using reads
      cases same
      simp [Statement.toJson, clauseIn?_fits fields inside isClause,
        optionalSpanIn?_fits inside isPlace]
  | .null | .truth _ | .number _ _ | .string _ | .list [] | .list (_ :: _ :: _ :: _) => cases reads
termination_by structural json

theorem statementList?_fits {room : Nat} (json : Json) {statements : List Statement}
    (fits : json.Fits room) (reads : json.statementList? = some statements) :
    (list (Statement.toJsons statements)).Fits room := by
  match json with
  | .list items =>
      obtain ⟨inner, rfl, inside⟩ := fits.exists_room
      rw [statementList?] at reads
      exact (fits_list _).2 (statements?_fit items inside reads)
  | .null | .truth _ | .number _ _ | .string _ | .object _ => cases reads
termination_by structural json

theorem statements?_fit {room : Nat} (items : List Json) {statements : List Statement}
    (fit : AllFit room items) (reads : statements? items = some statements) :
    AllFit room (Statement.toJsons statements) := by
  match items with
  | [] =>
      cases reads
      trivial
  | item :: items =>
      obtain ⟨first, isFirst, rest, isRest, same⟩ := by
        simpa only [statements?, Option.bind_eq_bind, Option.bind_eq_some_iff] using reads
      cases same
      exact ⟨statement?_fits item fit.1 isFirst, statements?_fit items fit.2 isRest⟩
termination_by structural items

theorem soleStatements?_fit {room : Nat} (items : List Json) {statements : List Statement}
    (fit : AllFit room items) (reads : soleStatements? items = some statements) :
    (list (Statement.toJsons statements)).Fits room := by
  match items with
  | [item] => exact statementList?_fits item fit.1 reads
  | [] | _ :: _ :: _ => cases reads
termination_by structural items

theorem statementsIn?_fit {room : Nat} (fields : List (String × Json))
    {statements : List Statement} (fit : FieldsFit room fields)
    (reads : statementsIn? fields = some statements) :
    (list (Statement.toJsons statements)).Fits room := by
  match fields with
  | [] => cases reads
  | (key, value) :: fields =>
      rw [statementsIn?] at reads
      split at reads
      · exact statementList?_fits value fit.1 reads
      · exact statementsIn?_fit fields fit.2 reads
termination_by structural fields

end

end Reading

end PointFree.Json
