import PointFree.Proofs.Compilation.Lowering
import PointFree.Surface.Reading

/-!
Contract: how a row of atoms is grouped.

A phrase is a tree that has every atom of a row as a leaf, at the place where the atom stands. The
row is read as an expression exactly if a phrase with these leaves groups modifiers from the left,
calls from the right and trains in forks from the right, and what is built is the expression of the
phrase.
-/

namespace PointFree

/-- A tree over the atoms of a row. -/
inductive Phrase where
  | word (term : Term)
  | modifyOne (modifier : OneModifier) (operand : Phrase)
  | modifyTwo (modifier : TwoModifier) (left right : Phrase)
  | call (function right : Phrase)
  | callBoth (function left right : Phrase)
  | atop (left right : Phrase)
  | fork (left middle right : Phrase)

namespace Phrase

/-- The leaves in the order of the source: a modifier stands behind its operand or between the
two, a function before its argument or between the two, and the parts of a train from left to
right. -/
def leaves : Phrase → List Item
  | word term => [.term term]
  | modifyOne modifier operand => operand.leaves ++ [.oneModifier modifier]
  | modifyTwo modifier left right => left.leaves ++ .twoModifier modifier :: right.leaves
  | call function right => function.leaves ++ right.leaves
  | callBoth function left right => left.leaves ++ function.leaves ++ right.leaves
  | atop left right => left.leaves ++ right.leaves
  | fork left middle right => left.leaves ++ middle.leaves ++ right.leaves

section Leaves

variable (first second third : Phrase)

@[simp] theorem leaves_word (term : Term) : (word term).leaves = [.term term] :=
  rfl

@[simp] theorem leaves_modifyOne (modifier : OneModifier) :
    (modifyOne modifier first).leaves = first.leaves ++ [.oneModifier modifier] :=
  rfl

@[simp] theorem leaves_modifyTwo (modifier : TwoModifier) :
    (modifyTwo modifier first second).leaves =
      first.leaves ++ .twoModifier modifier :: second.leaves :=
  rfl

@[simp] theorem leaves_call : (call first second).leaves = first.leaves ++ second.leaves :=
  rfl

@[simp] theorem leaves_callBoth :
    (callBoth first second third).leaves = second.leaves ++ first.leaves ++ third.leaves :=
  rfl

@[simp] theorem leaves_atop : (atop first second).leaves = first.leaves ++ second.leaves :=
  rfl

@[simp] theorem leaves_fork :
    (fork first second third).leaves = first.leaves ++ second.leaves ++ third.leaves :=
  rfl

end Leaves

/-- What the phrase is read as. -/
def expression : Phrase → Expression
  | word term => term.expression
  | modifyOne modifier operand => .modifyOne modifier.glyph operand.expression
  | modifyTwo modifier left right => .modifyTwo modifier.glyph left.expression right.expression
  | call function right => .call function.expression right.expression
  | callBoth function left right =>
      .callBoth function.expression left.expression right.expression
  | atop left right => .atop left.expression right.expression
  | fork left middle right => .fork left.expression middle.expression right.expression

/-- A modified operand is a function, a call is data, and a train is a function. -/
def role : Phrase → Role
  | word term => term.role
  | call _ _ | callBoth _ _ _ => .data
  | _ => .function

def term (phrase : Phrase) : Term :=
  ⟨phrase.expression, phrase.role⟩

/-- An atom with modifiers, the first of which is bound first; a right operand is a single atom. -/
inductive IsOperand : Phrase → Prop where
  | word (term : Term) : IsOperand (.word term)
  | modifyOne (modifier : OneModifier) {operand : Phrase} :
      IsOperand operand → IsOperand (.modifyOne modifier operand)
  | modifyTwo (modifier : TwoModifier) {left : Phrase} (right : Term) :
      IsOperand left → IsOperand (.modifyTwo modifier left (.word right))

/-- Functions applied to what stands on their right, and to a value on their left where there is
one. -/
inductive IsApplication : Phrase → Prop where
  | value {phrase : Phrase} : phrase.IsOperand → phrase.role = .data → IsApplication phrase
  | call {function right : Phrase} :
      function.IsOperand → function.role = .function → IsApplication right →
      IsApplication (.call function right)
  | callBoth {function left right : Phrase} :
      function.IsOperand → function.role = .function → left.IsOperand → left.role = .data →
      IsApplication right → IsApplication (.callBoth function left right)

/-- Forks whose right part is a fork again, or a function. -/
inductive IsForks : Phrase → Prop where
  | function {phrase : Phrase} : phrase.IsOperand → phrase.role = .function → IsForks phrase
  | fork {left middle right : Phrase} :
      left.IsOperand → middle.IsOperand → middle.role = .function → IsForks right →
      IsForks (.fork left middle right)

/-- Forks, and at the front an atop if one function is left over. -/
inductive IsTrain : Phrase → Prop where
  | forks {phrase : Phrase} : phrase.IsForks → IsTrain phrase
  | atop {left right : Phrase} :
      left.IsOperand → left.role = .function → right.IsForks → IsTrain (.atop left right)

def IsGrouped (phrase : Phrase) : Prop :=
  phrase.IsApplication ∨ phrase.IsTrain

theorem IsApplication.role_eq {phrase : Phrase} (isApplication : phrase.IsApplication) :
    phrase.role = .data := by
  cases isApplication with
  | value _ data => exact data
  | call => rfl
  | callBoth => rfl

theorem IsForks.role_eq {phrase : Phrase} (isForks : phrase.IsForks) : phrase.role = .function := by
  cases isForks with
  | function _ function => exact function
  | fork => rfl

theorem IsTrain.role_eq {phrase : Phrase} (isTrain : phrase.IsTrain) : phrase.role = .function := by
  cases isTrain with
  | forks isForks => exact isForks.role_eq
  | atop => rfl

theorem term_eq {phrase : Phrase} {role : Role} (isRole : phrase.role = role) :
    phrase.term = ⟨phrase.expression, role⟩ := by
  rw [term, isRole]

theorem eq_of_term_eq {phrase : Phrase} {expression : Expression} {role : Role}
    (same : phrase.term = ⟨expression, role⟩) :
    phrase.expression = expression ∧ phrase.role = role :=
  Term.mk.inj same

/-! ### Rows of phrases -/

/-- The row of the leaves of phrases, the last of which comes first. -/
def row (phrases : List Phrase) : List Item :=
  phrases.reverse.flatMap leaves

@[simp] theorem row_nil : row [] = [] :=
  rfl

theorem row_append (later earlier : List Phrase) :
    row (later ++ earlier) = row earlier ++ row later := by
  rw [row, List.reverse_append, List.flatMap_append]
  rfl

theorem row_singleton (phrase : Phrase) : row [phrase] = phrase.leaves :=
  List.flatMap_singleton ..

theorem row_cons (phrase : Phrase) (earlier : List Phrase) :
    row (phrase :: earlier) = row earlier ++ phrase.leaves := by
  rw [← row_singleton phrase]
  exact row_append [phrase] earlier

/-! ### What is read is grouped -/

variable {phrases : List Phrase}

/-- Binding modifiers makes operands, and every atom is in one of them. -/
theorem exists_operands {items : List Item} {terms : List Term}
    (operands : ∀ phrase ∈ phrases, phrase.IsOperand)
    (binds : bindModifiers items (phrases.map term) = .ok terms) :
    ∃ all, terms = all.map term ∧ (∀ phrase ∈ all, phrase.IsOperand) ∧
      row all = row phrases ++ items := by
  generalize stack : phrases.map term = earlier at binds
  induction items, earlier using bindModifiers.induct generalizing phrases with
  | case1 earlier =>
      cases binds
      exact ⟨phrases, stack.symm, operands, (List.append_nil _).symm⟩
  | case2 term rest earlier inductionHypothesis =>
      obtain ⟨all, same, isOperand, whole⟩ := inductionHypothesis
        (List.forall_mem_cons.2 ⟨.word term, operands⟩) (congrArg (term :: ·) stack) binds
      refine ⟨all, same, isOperand, whole.trans ?_⟩
      rw [row_cons, List.append_assoc]
      rfl
  | case3 => cases binds
  | case4 => cases binds
  | case5 modifier rest operand earlier inductionHypothesis =>
      obtain ⟨phrase, before, rfl, rfl, rfl⟩ := List.map_eq_cons_iff.1 stack
      obtain ⟨isOperand, others⟩ := List.forall_mem_cons.1 operands
      obtain ⟨all, same, isOperand, whole⟩ := inductionHypothesis
        (List.forall_mem_cons.2 ⟨.modifyOne modifier isOperand, others⟩) rfl binds
      refine ⟨all, same, isOperand, whole.trans ?_⟩
      simp [row_cons]
  | case6 modifier right rest left earlier inductionHypothesis =>
      obtain ⟨phrase, before, rfl, rfl, rfl⟩ := List.map_eq_cons_iff.1 stack
      obtain ⟨isOperand, others⟩ := List.forall_mem_cons.1 operands
      obtain ⟨all, same, isOperand, whole⟩ := inductionHypothesis
        (List.forall_mem_cons.2 ⟨.modifyTwo modifier right isOperand, others⟩) rfl binds
      refine ⟨all, same, isOperand, whole.trans ?_⟩
      simp [row_cons]
  | case7 modifier rest left earlier noTerm =>
      rw [bindModifiers] at binds
      · cases binds
      · exact noTerm

theorem exists_application {right : Phrase} {result : Expression}
    (isApplication : right.IsApplication) (operands : ∀ phrase ∈ phrases, phrase.IsOperand)
    (applies : application right.expression (phrases.map term) = .ok result) :
    ∃ whole : Phrase, whole.IsApplication ∧ whole.leaves = row phrases ++ right.leaves ∧
      whole.expression = result := by
  generalize start : right.expression = value at applies
  generalize stack : phrases.map term = earlier at applies
  induction value, earlier using application.induct generalizing right phrases with
  | case1 value =>
      obtain rfl := List.map_eq_nil_iff.1 stack
      cases applies
      exact ⟨right, isApplication, rfl, start⟩
  | case2 => cases applies
  | case3 value function left rest inductionHypothesis =>
      obtain ⟨operator, before, rfl, isOperator, stack⟩ := List.map_eq_cons_iff.1 stack
      obtain ⟨argument, before, rfl, isArgument, rfl⟩ := List.map_eq_cons_iff.1 stack
      obtain ⟨rfl, isFunction⟩ := eq_of_term_eq isOperator
      obtain ⟨rfl, isData⟩ := eq_of_term_eq isArgument
      subst start
      obtain ⟨first, second, others⟩ := by simpa using operands
      obtain ⟨whole, grouped, all, same⟩ := inductionHypothesis
        (.callBoth first isFunction second isData isApplication) others rfl rfl applies
      refine ⟨whole, grouped, all.trans ?_, same⟩
      simp [row_cons]
  | case4 value function rest alone inductionHypothesis =>
      rw [application] at applies
      · obtain ⟨operator, before, rfl, isOperator, rfl⟩ := List.map_eq_cons_iff.1 stack
        obtain ⟨rfl, isFunction⟩ := eq_of_term_eq isOperator
        subst start
        obtain ⟨first, others⟩ := List.forall_mem_cons.1 operands
        obtain ⟨whole, grouped, all, same⟩ := inductionHypothesis
          (.call first isFunction isApplication) others rfl rfl applies
        refine ⟨whole, grouped, all.trans ?_, same⟩
        simp [row_cons]
      · exact alone

theorem exists_train {right : Phrase} {result : Expression} (isForks : right.IsForks)
    (operands : ∀ phrase ∈ phrases, phrase.IsOperand)
    (trains : train right.expression (phrases.map term) = .ok result) :
    ∃ whole : Phrase, whole.IsTrain ∧ whole.leaves = row phrases ++ right.leaves ∧
      whole.expression = result := by
  generalize start : right.expression = value at trains
  generalize stack : phrases.map term = earlier at trains
  induction value, earlier using train.induct generalizing right phrases with
  | case1 value =>
      obtain rfl := List.map_eq_nil_iff.1 stack
      cases trains
      exact ⟨right, .forks isForks, rfl, start⟩
  | case2 => cases trains
  | case3 value left =>
      obtain ⟨first, before, rfl, isFirst, stack⟩ := List.map_eq_cons_iff.1 stack
      obtain rfl := List.map_eq_nil_iff.1 stack
      obtain ⟨rfl, isFunction⟩ := eq_of_term_eq isFirst
      subst start
      cases trains
      exact ⟨.atop first right, .atop (operands first (.head _)) isFunction isForks,
        by rw [row_singleton, leaves_atop], rfl⟩
  | case4 value middle left role rest inductionHypothesis =>
      obtain ⟨second, before, rfl, isSecond, stack⟩ := List.map_eq_cons_iff.1 stack
      obtain ⟨first, before, rfl, isFirst, rfl⟩ := List.map_eq_cons_iff.1 stack
      obtain ⟨rfl, isFunction⟩ := eq_of_term_eq isSecond
      obtain ⟨rfl, _⟩ := eq_of_term_eq isFirst
      subst start
      obtain ⟨middles, lefts, others⟩ := by simpa using operands
      obtain ⟨whole, grouped, all, same⟩ := inductionHypothesis
        (.fork lefts middles isFunction isForks) others rfl rfl trains
      refine ⟨whole, grouped, all.trans ?_, same⟩
      simp [row_cons]

/-! ### What is grouped is read -/

/-- An operand is bound as it is grouped, whatever comes after it. -/
theorem IsOperand.bindModifiers_eq {phrase : Phrase} (isOperand : phrase.IsOperand)
    (rest : List Item) (terms : List Term) :
    bindModifiers (phrase.leaves ++ rest) terms = bindModifiers rest (phrase.term :: terms) := by
  induction isOperand generalizing rest with
  | word term => rfl
  | modifyOne modifier _ inductionHypothesis =>
      rw [leaves_modifyOne, List.append_assoc, inductionHypothesis]
      rfl
  | modifyTwo modifier right _ inductionHypothesis =>
      rw [leaves_modifyTwo, List.append_assoc, inductionHypothesis]
      rfl

theorem bindModifiers_row (operands : ∀ phrase ∈ phrases, phrase.IsOperand) (rest : List Item) :
    bindModifiers (row phrases ++ rest) [] = bindModifiers rest (phrases.map term) := by
  induction phrases generalizing rest with
  | nil => rfl
  | cons phrase earlier inductionHypothesis =>
      obtain ⟨isOperand, others⟩ := List.forall_mem_cons.1 operands
      rw [row_cons, List.append_assoc, inductionHypothesis others, isOperand.bindModifiers_eq]
      rfl

/-- The operands of an application: what stands to their left is applied to it. -/
theorem IsApplication.exists_row {phrase : Phrase} (isApplication : phrase.IsApplication) :
    ∃ phrases, (∀ operand ∈ phrases, operand.IsOperand) ∧ row phrases = phrase.leaves ∧
      ∀ more, (∀ next ∈ more.head?, next.role = .function) →
        termOfTerms (phrases.map term ++ more) =
          (application phrase.expression more).map (⟨·, .data⟩) := by
  induction isApplication with
  | @value phrase isOperand data =>
      refine ⟨[phrase], by simpa using isOperand, row_singleton phrase, fun more _ => ?_⟩
      rw [List.map_singleton, term_eq data]
      rfl
  | @call function right isOperand isFunction _ inductionHypothesis =>
      obtain ⟨phrases, operands, whole, applies⟩ := inductionHypothesis
      refine ⟨phrases ++ [function], ?_, ?_, fun more alone => ?_⟩
      · exact List.forall_mem_append.2 ⟨operands, by simpa using isOperand⟩
      · rw [row_append, row_singleton, whole, leaves_call]
      · rw [List.map_append, List.append_assoc, applies _ fun next isNext => by
          cases isNext
          exact isFunction]
        rw [List.map_singleton, term_eq isFunction, List.singleton_append, application]
        · rfl
        · rintro left beyond rfl
          cases alone _ rfl
  | @callBoth function left right isOperand isFunction lefts data _ inductionHypothesis =>
      obtain ⟨phrases, operands, whole, applies⟩ := inductionHypothesis
      refine ⟨phrases ++ [function, left], ?_, ?_, fun more _ => ?_⟩
      · exact List.forall_mem_append.2 ⟨operands, by simpa using ⟨isOperand, lefts⟩⟩
      · simp [row_append, row_cons, whole]
      · rw [List.map_append, List.append_assoc, applies _ fun next isNext => by
          cases isNext
          exact isFunction]
        rw [List.map_cons, List.map_singleton, term_eq isFunction, term_eq data]
        rfl

theorem IsForks.exists_row {phrase : Phrase} (isForks : phrase.IsForks) :
    ∃ phrases, (∀ operand ∈ phrases, operand.IsOperand) ∧ row phrases = phrase.leaves ∧
      ∀ more, termOfTerms (phrases.map term ++ more) =
        (train phrase.expression more).map (⟨·, .function⟩) := by
  induction isForks with
  | @function phrase isOperand isFunction =>
      refine ⟨[phrase], by simpa using isOperand, row_singleton phrase, fun more => ?_⟩
      rw [List.map_singleton, term_eq isFunction]
      rfl
  | @fork left middle right lefts middles isFunction _ inductionHypothesis =>
      obtain ⟨phrases, operands, whole, trains⟩ := inductionHypothesis
      refine ⟨phrases ++ [middle, left], ?_, ?_, fun more => ?_⟩
      · exact List.forall_mem_append.2 ⟨operands, by simpa using ⟨middles, lefts⟩⟩
      · simp [row_append, row_cons, whole]
      · rw [List.map_append, List.append_assoc, trains, List.map_cons, List.map_singleton,
          term_eq isFunction]
        rfl

end Phrase

open Phrase

theorem termOfItems_row {phrases : List Phrase} (operands : ∀ phrase ∈ phrases, phrase.IsOperand) :
    termOfItems (row phrases) = termOfTerms (phrases.map Phrase.term) := by
  have binds := bindModifiers_row operands []
  rw [List.append_nil] at binds
  rw [termOfItems, binds]
  rfl

/-- What is grouped is read as it is grouped. -/
theorem Phrase.IsGrouped.termOfItems_eq {phrase : Phrase} (grouped : phrase.IsGrouped) :
    termOfItems phrase.leaves = .ok phrase.term := by
  rcases grouped with isApplication | isTrain
  · obtain ⟨phrases, operands, whole, applies⟩ := isApplication.exists_row
    have ended := applies [] nofun
    rw [List.append_nil] at ended
    rw [← whole, termOfItems_row operands, ended, term_eq isApplication.role_eq]
    rfl
  · cases isTrain with
    | forks isForks =>
        obtain ⟨phrases, operands, whole, trains⟩ := isForks.exists_row
        have ended := trains []
        rw [List.append_nil] at ended
        rw [← whole, termOfItems_row operands, ended, term_eq isForks.role_eq]
        rfl
    | @atop left right lefts isFunction isForks =>
        obtain ⟨phrases, operands, whole, trains⟩ := isForks.exists_row
        have all : row (phrases ++ [left]) = (Phrase.atop left right).leaves := by
          rw [row_append, row_singleton, whole, leaves_atop]
        rw [← all, termOfItems_row (List.forall_mem_append.2 ⟨operands, by simpa using lefts⟩),
          List.map_append, trains, List.map_singleton, term_eq isFunction]
        rfl

/-- A row is read as the tree over its atoms that is grouped. -/
theorem termOfItems_eq_ok_iff {items : List Item} {term : Term} :
    termOfItems items = .ok term ↔
      ∃ phrase : Phrase, phrase.leaves = items ∧ phrase.IsGrouped ∧ phrase.term = term := by
  constructor
  · intro reads
    obtain ⟨terms, binds, reads⟩ := Outcome.bind_eq_ok.1 reads
    obtain ⟨phrases, rfl, operands, whole⟩ := exists_operands (List.forall_mem_nil _) binds
    have whole : row phrases = items := whole
    cases phrases with
    | nil => cases reads
    | cons last earlier =>
        obtain ⟨isOperand, others⟩ := List.forall_mem_cons.1 operands
        rw [row_cons] at whole
        rw [List.map_cons] at reads
        cases isRole : last.role with
        | data =>
            rw [term_eq isRole] at reads
            obtain ⟨result, applies, rfl⟩ := Outcome.map_eq_ok.1 reads
            obtain ⟨phrase, grouped, all, rfl⟩ :=
              exists_application (.value isOperand isRole) others applies
            exact ⟨phrase, all.trans whole, .inl grouped, term_eq grouped.role_eq⟩
        | function =>
            rw [term_eq isRole] at reads
            obtain ⟨result, trains, rfl⟩ := Outcome.map_eq_ok.1 reads
            obtain ⟨phrase, grouped, all, rfl⟩ :=
              exists_train (.function isOperand isRole) others trains
            exact ⟨phrase, all.trans whole, .inr grouped, term_eq grouped.role_eq⟩
  · rintro ⟨phrase, rfl, grouped, rfl⟩
    exact grouped.termOfItems_eq

end PointFree
