import PointFree.Proofs.Heap
import PointFree.Proofs.Legibility

/-!
Contract: running a routine on legible memories.

A routine computes with its constants, with the variables of frames, and with what the
functions it calls make of those. All of them are legible, and so is what it stores and what
it returns.
-/

namespace PointFree

open Likeness Legibility

variable {pending : Element → Prop}

/-! ### Functions that are made -/

/-- The data that the function holds is legible. -/
def Function.IsLegible (pending : Element → Prop) (function : Function) : Prop :=
  ∀ content ∈ function.contents, content.IsLegible pending

def Form.IsLegible (pending : Element → Prop) (form : Form) : Prop :=
  ∀ content ∈ form.contents, content.IsLegible pending

theorem Function.isLegible_iff {function : Function} :
    (Value.function function).IsLegible pending ↔ function.IsLegible pending := by
  constructor
  · intro legible
    cases legible with
    | function contents => exact contents
  · exact .function

theorem Form.isLegible_append {left right : Function} (lefts : left.IsLegible pending)
    (rights : right.IsLegible pending) :
    ∀ content ∈ left.contents ++ right.contents, content.IsLegible pending :=
  List.forall_mem_append.2 ⟨lefts, rights⟩

namespace Legibility

/-- Legible parts make a legible function. -/
theorem makeOf {form : Form} (contents : form.IsLegible pending) :
    (legible pending).Keeps (Function.IsLegible pending) (Action.make form) :=
  (make contents).imp Function.isLegible_iff.1

theorem requireInverse {function : Function} (functions : function.IsLegible pending) :
    (legible pending).Keeps (Function.IsLegible pending)
      (liftM function.requireInverse : Run Function) := by
  refine Keeps.lift fun ended => ?_
  rw [Function.requireInverse] at ended
  split at ended
  · cases ended
    exact functions
  · cases ended

theorem constant [(legible pending).Lawful] {content : Value}
    (contents : content.IsLegible pending) :
    (legible pending).Keeps (Function.IsLegible pending) (Function.constant content) :=
  Keeps.bind (Values.text contents).keeps fun _ =>
    makeOf fun _ member => List.mem_singleton.1 member ▸ contents

theorem toFunction [(legible pending).Lawful] {value : Value} (legible : value.IsLegible pending) :
    (Likeness.legible pending).Keeps (Function.IsLegible pending) value.toFunction := by
  cases value with
  | function operation => exact Keeps.pure (Function.isLegible_iff.1 legible)
  | number => exact constant legible
  | character => exact constant legible
  | array => exact constant legible

theorem modifyOne [(legible pending).Lawful] (modifier : OneModifier) {operand : Value}
    (operands : operand.IsLegible pending) :
    (legible pending).Keeps (Function.IsLegible pending) (modifier.apply operand) := by
  refine Keeps.bind (toFunction operands) fun functions => ?_
  cases modifier with
  | constant => exact constant operands
  | swap => exact makeOf functions
  | each => exact makeOf functions
  | table => exact makeOf functions
  | cells => exact makeOf functions
  | fold => exact makeOf functions
  | scan => exact makeOf functions
  | undo => exact Keeps.bind (requireInverse functions) fun invertible => makeOf invertible

theorem modifyTwo [(legible pending).Lawful] (modifier : TwoModifier) {left right : Value}
    (lefts : left.IsLegible pending) (rights : right.IsLegible pending) :
    (legible pending).Keeps (Function.IsLegible pending) (modifier.apply left right) := by
  refine Keeps.bind (toFunction lefts) fun first => ?_
  refine Keeps.bind (toFunction rights) fun second => ?_
  match modifier with
  | .atop => exact makeOf (Form.isLegible_append first second)
  | .over => exact makeOf (Form.isLegible_append first second)
  | .under =>
      exact Keeps.bind (requireInverse second) fun invertible =>
        makeOf (Form.isLegible_append first invertible)
  | .rank => exact makeOf (Form.isLegible_append first second)
  | .before => exact makeOf (Form.isLegible_append first second)
  | .after => exact makeOf (Form.isLegible_append first second)

/-! ### Variables -/

theorem callValue {operator right : Value} {left : Option Value}
    (operators : operator.IsLegible pending) (rights : right.IsLegible pending)
    (lefts : Option.IsLegible pending left) :
    (legible pending).Keeps (Value.IsLegible pending) (operator.call right left : Run Value) := by
  cases operator with
  | function operation => exact call operators rights lefts
  | number => exact Keeps.pure operators
  | character => exact Keeps.pure operators
  | array => exact Keeps.pure operators

mutual

theorem savePlace [(legible pending).Lawful] (fresh : Bool) (frame : Nat) :
    (place : Place) → {value : Value} → value.IsLegible pending →
    (legible pending).Keeps (fun _ => True) (place.save fresh frame value : Run Unit)
  | .slot depth position, _, values => save fresh frame depth position values
  | .list places, _, values => by
      cases values with
      | number => exact Keeps.refuse _
      | character => exact Keeps.refuse _
      | function => exact Keeps.refuse _
      | array arrays =>
          refine Keeps.bind (Operation.KeepsLegible.majorCells arrays) fun cellsLegible => ?_
          split
          · exact savePlaces fresh frame places fun cell member =>
              cellsLegible cell (Array.mem_toList_iff.1 member)
          · exact Keeps.refuse _

theorem savePlaces [(legible pending).Lawful] (fresh : Bool) (frame : Nat) :
    (places : List Place) → {values : List Value} →
    (∀ value ∈ values, value.IsLegible pending) →
    (legible pending).Keeps (fun _ => True) (Place.saveEach fresh frame places values : Run Unit)
  | [], _, _ => Keeps.pure trivial
  | _ :: _, [], _ => Keeps.pure trivial
  | place :: places, _ :: _, values => by
      obtain ⟨here, later⟩ := List.forall_mem_cons.1 values
      exact Keeps.bind (savePlace fresh frame place here) fun _ =>
        savePlaces fresh frame places later

end

theorem loadPlace (frame : Nat) (place : Place) :
    (legible pending).Keeps (Value.IsLegible pending) (place.load frame : Run Value) := by
  cases place with
  | slot depth position => exact load frame depth position
  | list => exact Keeps.refuse _

/-! ### Code -/

/-- A value that is stored and then given. -/
theorem stored [(legible pending).Lawful] (fresh : Bool) (frame : Nat) (place : Place)
    {value : Value} (values : value.IsLegible pending) :
    (legible pending).Keeps (Value.IsLegible pending) (do
      place.save fresh frame value
      return value : Run Value) :=
  Keeps.bind (savePlace fresh frame place values) fun _ => Keeps.pure values

theorem evaluateEach (program frame : Nat) {nodes : List Node}
    (items : ∀ node ∈ nodes, (legible pending).Keeps (Value.IsLegible pending)
      (node.evaluate program frame : Run Value)) :
    (legible pending).Keeps (fun values => ∀ value ∈ values, value.IsLegible pending)
      (Node.evaluateEach program frame nodes : Run (List Value)) := by
  induction nodes with
  | nil => exact Keeps.pure nofun
  | cons node nodes inductionHypothesis =>
      obtain ⟨here, later⟩ := List.forall_mem_cons.1 items
      refine Keeps.bind here fun first => ?_
      refine Keeps.bind (inductionHypothesis later) fun others => Keeps.pure ?_
      exact List.forall_mem_cons.2 ⟨first, others⟩

theorem evaluate [(legible pending).Lawful] (program frame : Nat) {node : Node}
    (known : node.AllConstants (Value.IsLegible pending)) :
    (legible pending).Keeps (Value.IsLegible pending)
      (node.evaluate program frame : Run Value) := by
  have made {action : Run Function}
      (keeps : (legible pending).Keeps (Function.IsLegible pending) action) :
      (legible pending).Keeps (Value.IsLegible pending)
        (action >>= fun function => Pure.pure (.function function)) :=
    Keeps.bind keeps fun functions => Keeps.pure (Function.isLegible_iff.2 functions)
  induction known with
  | constant here => exact Keeps.pure here
  | closure block => exact made (makeOf nofun)
  | load depth slot => exact load frame depth slot
  | list _ items =>
      refine Keeps.bind (evaluateEach program frame items) fun values => Keeps.pure ?_
      exact .list (Operation.KeepsLegible.row fun value member =>
        values value (by simpa using member))
  | call _ _ right function =>
      refine Keeps.bind right fun argument => Keeps.bind function fun operator => ?_
      exact callValue operator argument Option.isLegible_none
  | callBoth _ _ _ right function left =>
      refine Keeps.bind right fun argument => Keeps.bind function fun operator => ?_
      exact Keeps.bind left fun other => callValue operator argument (Option.isLegible_some other)
  | atop _ _ right left =>
      refine Keeps.bind right fun second => Keeps.bind (toFunction second) fun inner => ?_
      refine Keeps.bind left fun first => Keeps.bind (toFunction first) fun outer => ?_
      exact made (makeOf (Form.isLegible_append outer inner))
  | fork _ _ _ right middle left =>
      refine Keeps.bind right fun third => Keeps.bind (toFunction third) fun after => ?_
      refine Keeps.bind middle fun second => Keeps.bind (toFunction second) fun between => ?_
      refine Keeps.bind left fun first => Keeps.bind (toFunction first) fun before => ?_
      exact made (makeOf (List.forall_mem_append.2 ⟨before, Form.isLegible_append between after⟩))
  | modifyOne modifier _ operand =>
      exact Keeps.bind operand fun value => made (modifyOne modifier value)
  | modifyTwo modifier _ _ right left =>
      refine Keeps.bind right fun second => Keeps.bind left fun first => ?_
      exact made (modifyTwo modifier first second)
  | define place _ value => exact Keeps.bind value fun computed => stored true frame place computed
  | assign place _ value =>
      exact Keeps.bind value fun computed => stored false frame place computed
  | updateWith place _ _ argument function =>
      refine Keeps.bind argument fun operand => Keeps.bind function fun operator => ?_
      refine Keeps.bind (loadPlace frame place) fun current => ?_
      exact Keeps.bind (callValue operator operand (Option.isLegible_some current)) fun computed =>
        stored false frame place computed
  | update place _ function =>
      refine Keeps.bind function fun operator => ?_
      refine Keeps.bind (loadPlace frame place) fun current => ?_
      exact Keeps.bind (callValue operator current Option.isLegible_none) fun computed =>
        stored false frame place computed

theorem execute [(legible pending).Lawful] (block program frame : Nat) {steps : List Step}
    (known : ∀ step ∈ steps, step.AllConstants (Value.IsLegible pending)) :
    (legible pending).Keeps (Value.IsLegible pending)
      (Step.execute block program frame steps : Run Value) := by
  induction steps with
  | nil => exact Keeps.refuse _
  | cons step rest inductionHypothesis =>
      obtain ⟨here, later⟩ := List.forall_mem_cons.1 known
      cases here with
      | evaluate span node =>
          exact Keeps.bind (Keeps.located span (evaluate program frame node)) fun _ =>
            inductionHypothesis later
      | guard span test fallback =>
          refine Keeps.bind (P := fun _ => True) (Keeps.located span ?_) fun {holds} _ => ?_
          · exact Keeps.bind (evaluate program frame test) fun _ => Keeps.lift fun _ => trivial
          · split
            · exact Keeps.located span (evaluate program frame fallback)
            · exact inductionHypothesis later
      | finish span node => exact Keeps.located span (evaluate program frame node)

/-! ### Blocks -/

theorem slots (routine : Routine) {this : Function} {right : Value} {left : Option Value}
    (functions : this.IsLegible pending) (rights : right.IsLegible pending)
    (lefts : Option.IsLegible pending left) :
    ∀ value, some value ∈ routine.slots this right left → value.IsLegible pending := by
  intro value member
  rw [Routine.slots] at member
  rcases Array.mem_or_eq_of_mem_setIfInBounds member with member | same
  · rcases Array.mem_or_eq_of_mem_setIfInBounds member with member | same
    · rcases Array.mem_or_eq_of_mem_setIfInBounds member with member | same
      · cases (Array.mem_replicate.1 member).2
      · exact Option.some.inj same ▸ Function.isLegible_iff.2 functions
    · exact Option.some.inj same ▸ rights
  · exact lefts value same.symm

theorem enter [(legible pending).Lawful] (program block frame : Nat) {this : Function}
    {right : Value} {left : Option Value} (functions : this.IsLegible pending)
    (rights : right.IsLegible pending) (lefts : Option.IsLegible pending left) :
    (legible pending).Keeps (Value.IsLegible pending)
      (Blocks.enter program block frame this right left : Run Value) := by
  rw [Installed.enter_eq]
  refine Keeps.bind (routine program block) fun {found} known => nested found.limit ?_
  refine Keeps.bind (newFrame (some frame) (slots found functions rights lefts)) fun _ => ?_
  exact execute found.index program _ known

end Legibility

end PointFree
