import Mathlib.Data.List.Chain
import PointFree.Proofs.Phrasing.Grouping

/-!
Contract: which rows of atoms are expressions.

Modifiers bind where each has its operands beside it. What is left is a row of data and functions,
and it is read by the roles alone: an expression that ends in data fails where two values meet, and
one that ends in a function fails where a value stands at an odd distance from the end.
-/

namespace PointFree

namespace Item

def isModifier : Item → Bool
  | .term _ => false
  | _ => true

def isTwoModifier : Item → Bool
  | .twoModifier _ => true
  | _ => false

/-- The roles of the terms of a row. An operand counts as a function where it is modified, and the
right operand of a modifier is no term of its own. -/
def roles : List Item → List Role
  | [] => []
  | .term first :: rest =>
      (if rest.head?.any isModifier then .function else first.role) :: roles rest
  | .twoModifier _ :: .term _ :: rest => roles rest
  | _ :: rest => roles rest

end Item

namespace Role

/-- Data stands at the end, and no two values stand side by side. -/
def Applies (roles : List Role) : Prop :=
  roles.getLast? = some .data ∧
    roles.IsChain fun first second => ¬(first = .data ∧ second = .data)

/-- A function stands at the end, and no value at an odd distance from it. -/
def Trains (roles : List Role) : Prop :=
  roles.getLast? = some .function ∧
    ∀ distance, roles.reverse[distance]? = some .data → distance % 2 = 0

end Role

/-- What a row has to be to be read. -/
structure Item.AreGrammatical (items : List Item) : Prop where
  nonempty : items ≠ []
  /-- Every modifier directly follows an operand, or another modifier that has all its operands. -/
  follows : (∀ first ∈ items.head?, first.isModifier = false) ∧
    items.IsChain fun previous next => next.isModifier = true → previous.isTwoModifier = false
  /-- Every two-modifier is directly followed by an atom that is no modifier. -/
  continues : (∀ last ∈ items.getLast?, last.isTwoModifier = false) ∧
    items.IsChain fun previous next => previous.isTwoModifier = true → next.isModifier = false
  roles : Role.Applies (roles items) ∨ Role.Trains (roles items)

/-! ### Modifiers -/

namespace Item

/-- Every modifier of the row has its operands beside it. -/
def AreBound (items : List Item) : Prop :=
  (∀ first ∈ items.head?, first.isModifier = false) ∧
    (items.IsChain fun previous next => previous.isTwoModifier = true → next.isModifier = false) ∧
    ∀ last ∈ items.getLast?, last.isTwoModifier = false

theorem areGrammatical_iff {items : List Item} :
    AreGrammatical items ↔
      AreBound items ∧ (Role.Applies (roles items) ∨ Role.Trains (roles items)) := by
  constructor
  · exact fun grammatical => ⟨⟨grammatical.follows.1, grammatical.continues.2,
      grammatical.continues.1⟩, grammatical.roles⟩
  · rintro ⟨⟨begins, chain, ends⟩, roles⟩
    refine ⟨?_, ⟨begins, chain.imp fun {previous next} continues modifies => ?_⟩,
      ⟨ends, chain⟩, roles⟩
    · rintro rfl
      simp [Item.roles, Role.Applies, Role.Trains] at roles
    · cases two : previous.isTwoModifier with
      | false => rfl
      | true => cases modifies.symm.trans (continues two)

theorem bindModifiers_isOk_iff (items : List Item) (stack : List Term) :
    (∃ terms, bindModifiers items stack = .ok terms) ↔
      AreBound (stack.head?.toList.map Item.term ++ items) := by
  induction items, stack using bindModifiers.induct with
  | case1 stack => cases stack <;> simp [bindModifiers, AreBound, isModifier, isTwoModifier]
  | case2 term rest stack inductionHypothesis =>
      rw [bindModifiers, inductionHypothesis]
      cases stack <;> simp [AreBound, isModifier, isTwoModifier]
  | case3 => simp [bindModifiers, refuse, AreBound, isModifier]
  | case4 => simp [bindModifiers, refuse, AreBound, isModifier]
  | case5 modifier rest operand stack inductionHypothesis =>
      rw [bindModifiers, inductionHypothesis]
      cases rest <;> simp [AreBound, isModifier, isTwoModifier]
  | case6 modifier right rest left stack inductionHypothesis =>
      rw [bindModifiers, inductionHypothesis]
      cases rest <;> simp [AreBound, isModifier, isTwoModifier]
  | case7 modifier rest left stack noTerm =>
      rw [bindModifiers]
      · cases rest with
        | nil => simp [refuse, AreBound, isModifier, isTwoModifier]
        | cons next rest =>
            cases next with
            | term => exact absurd rfl (noTerm _ _)
            | oneModifier => simp [refuse, AreBound, isModifier, isTwoModifier]
            | twoModifier => simp [refuse, AreBound, isModifier, isTwoModifier]
      · exact noTerm

/-- The roles of terms, the last of which comes first, and of what comes after them. -/
def rolesAfter : List Term → List Item → List Role
  | [], items => roles items
  | last :: stack, items => (stack.map Term.role).reverse ++ roles (.term last :: items)

theorem roles_of_bindModifiers {items : List Item} {stack terms : List Term}
    (binds : bindModifiers items stack = .ok terms) :
    (terms.map Term.role).reverse = rolesAfter stack items := by
  induction items, stack using bindModifiers.induct with
  | case1 stack =>
      cases binds
      cases terms <;> simp [rolesAfter, roles]
  | case2 term rest stack inductionHypothesis =>
      rw [inductionHypothesis binds]
      cases stack <;> simp [rolesAfter, roles, isModifier]
  | case3 => cases binds
  | case4 => cases binds
  | case5 modifier rest operand stack inductionHypothesis =>
      rw [inductionHypothesis binds]
      simp [rolesAfter, roles, isModifier]
  | case6 modifier right rest left stack inductionHypothesis =>
      rw [inductionHypothesis binds]
      simp [rolesAfter, roles, isModifier]
  | case7 modifier rest left stack noTerm =>
      rw [bindModifiers] at binds
      · cases binds
      · exact noTerm

end Item

/-! ### Roles -/

theorem application_isOk_iff (right : Expression) (terms : List Term) :
    (∃ result, application right terms = .ok result) ↔
      (Role.data :: terms.map Term.role).IsChain fun first second =>
        ¬(first = .data ∧ second = .data) := by
  induction right, terms using application.induct with
  | case1 => simp [application]
  | case2 => simp [application, refuse]
  | case3 right function left rest inductionHypothesis =>
      rw [application, inductionHypothesis]
      simp
  | case4 right function rest alone inductionHypothesis =>
      rw [application]
      · rw [inductionHypothesis]
        cases rest with
        | nil => simp
        | cons left rest =>
            obtain ⟨left, role⟩ := left
            cases role with
            | data => exact absurd rfl (alone _ _)
            | function => simp
      · exact alone

theorem train_isOk_iff (right : Expression) (terms : List Term) :
    (∃ result, train right terms = .ok result) ↔
      ∀ distance, (Role.function :: terms.map Term.role)[distance]? = some .data →
        distance % 2 = 0 := by
  induction right, terms using train.induct with
  | case1 =>
      refine ⟨fun _ distance value => ?_, fun _ => ⟨_, rfl⟩⟩
      cases distance <;> simp at value
  | case2 =>
      constructor
      · rintro ⟨_, ⟨⟩⟩
      · intro even
        cases even 1 rfl
  | case3 =>
      refine ⟨fun _ distance value => ?_, fun _ => ⟨_, rfl⟩⟩
      rcases distance with _ | _ | distance
      · cases value
      · cases value
      · simp at value
  | case4 right middle left role rest inductionHypothesis =>
      rw [train, inductionHypothesis]
      -- Two terms are taken at once, so what is even stays even.
      constructor
      · intro even distance value
        rcases distance with _ | _ | _ | distance
        · cases value
        · cases value
        · rfl
        · have := even (distance + 1) value
          omega
      · intro even distance value
        cases distance with
        | zero => cases value
        | succ distance =>
            have := even (distance + 3) value
            omega

theorem Outcome.exists_map_iff {α β : Type} {outcome : Outcome α} {change : α → β} :
    (∃ result, outcome.map change = .ok result) ↔ ∃ value, outcome = .ok value := by
  cases outcome with
  | error =>
      constructor
      · rintro ⟨_, ⟨⟩⟩
      · rintro ⟨_, ⟨⟩⟩
  | ok value => exact ⟨fun _ => ⟨value, rfl⟩, fun _ => ⟨_, rfl⟩⟩

/-- Terms are read by their roles alone. -/
theorem termOfTerms_isOk_iff (terms : List Term) :
    (∃ term, termOfTerms terms = .ok term) ↔
      Role.Applies (terms.map Term.role).reverse ∨ Role.Trains (terms.map Term.role).reverse := by
  rw [Role.Applies, Role.Trains, List.getLast?_reverse, List.isChain_reverse, List.reverse_reverse]
  cases terms with
  | nil => simp [termOfTerms, refuse]
  | cons last rest =>
      obtain ⟨right, role⟩ := last
      cases role with
      | data =>
          rw [termOfTerms, Outcome.exists_map_iff, application_isOk_iff]
          simp [and_comm]
      | function =>
          rw [termOfTerms, Outcome.exists_map_iff, train_isOk_iff]
          simp

theorem termOfItems_isOk_iff (items : List Item) :
    (∃ term, termOfItems items = .ok term) ↔ Item.AreGrammatical items := by
  rw [Item.areGrammatical_iff]
  have binds := Item.bindModifiers_isOk_iff items []
  rw [List.head?_nil, Option.toList_none, List.map_nil, List.nil_append] at binds
  rw [← binds]
  constructor
  · rintro ⟨term, reads⟩
    obtain ⟨terms, bound, reads⟩ := Outcome.bind_eq_ok.1 reads
    have roles := (termOfTerms_isOk_iff terms).1 ⟨term, reads⟩
    rw [Item.roles_of_bindModifiers bound] at roles
    exact ⟨⟨terms, bound⟩, roles⟩
  · rintro ⟨⟨terms, bound⟩, roles⟩
    have same : (terms.map Term.role).reverse = Item.roles items :=
      Item.roles_of_bindModifiers bound
    rw [← same] at roles
    obtain ⟨term, reads⟩ := (termOfTerms_isOk_iff terms).2 roles
    exact ⟨term, Outcome.bind_eq_ok.2 ⟨terms, bound, reads⟩⟩

/-! ### Rows of atoms -/

theorem Atom.term_readings {atoms : List Atom} {items : List Item}
    (resolve : List.Forall₂ (fun atom item => atom.item = .ok item) atoms items) :
    (Atom.readings atoms).term = termOfItems items := by
  have collected : (Atom.readings atoms).mapM Prod.snd = .ok items := by
    induction resolve with
    | nil => rfl
    | cons first _ inductionHypothesis =>
        rw [Atom.readings, List.mapM_cons, first, inductionHypothesis]
        rfl
  rw [Readings.term, collected]
  rfl

/-- Atoms that can each be read on their own make up an expression exactly if the row of them is
grammatical, and the expression is then that of the phrase which has these atoms as its leaves, in
their order, and groups modifiers from the left, calls from the right and forks from the right. -/
theorem Atom.term_readings_iff {atoms : List Atom} {items : List Item}
    (resolve : List.Forall₂ (fun atom item => atom.item = .ok item) atoms items) :
    ((∃ term, (Atom.readings atoms).term = .ok term) ↔ Item.AreGrammatical items) ∧
      ∀ term, (Atom.readings atoms).term = .ok term ↔
        ∃ phrase : Phrase, phrase.leaves = items ∧ phrase.IsGrouped ∧ phrase.term = term := by
  rw [Atom.term_readings resolve]
  exact ⟨termOfItems_isOk_iff items, fun _ => termOfItems_eq_ok_iff⟩

/-- A value, a function with two modifiers, and another value. -/
def modifiedRow : List Atom :=
  [.implicit .right .data, .implicit .this .function, .oneModifier .fold, .twoModifier .atop,
    .implicit .left .function, .number 1.0]

def modifiedItems : List Item :=
  [.term ⟨.implicit .right, .data⟩, .term ⟨.implicit .this, .function⟩, .oneModifier .fold,
    .twoModifier .atop, .term ⟨.implicit .left, .function⟩, .term ⟨.number 1.0, .data⟩]

/-- The function is modified by the fold first, and the value is its left argument. -/
def modifiedTerm : Term :=
  ⟨.callBoth (.modifyTwo '∘' (.modifyOne '´' (.implicit .this)) (.implicit .left))
    (.implicit .right) (.number 1.0), .data⟩

theorem Atom.term_readings_iff_modifiedRow :
    List.Forall₂ (fun (atom : Atom) (item : Item) => atom.item = .ok item) modifiedRow
        modifiedItems ∧
      (Atom.readings modifiedRow).term = .ok modifiedTerm ∧
      Item.AreGrammatical modifiedItems ∧
      ∃ phrase : Phrase, phrase.leaves = modifiedItems ∧ phrase.IsGrouped ∧
        phrase.term = modifiedTerm := by
  have resolve : List.Forall₂ (fun (atom : Atom) (item : Item) => atom.item = .ok item) modifiedRow
      modifiedItems :=
    .cons rfl (.cons rfl (.cons rfl (.cons rfl (.cons rfl (.cons rfl .nil)))))
  have reads : (Atom.readings modifiedRow).term = .ok modifiedTerm :=
    (Atom.term_readings resolve).trans rfl
  obtain ⟨grammatical, grouped⟩ := Atom.term_readings_iff resolve
  exact ⟨resolve, reads, grammatical.1 ⟨_, reads⟩, (grouped _).1 reads⟩

end PointFree
