import PointFree.Machine
import PointFree.Proofs.Correspondence
import PointFree.Proofs.Correspondence.Function

/-!
Contract: one routine in two evaluations.

Where two frames keep corresponding values alike, a routine goes the same way in both, as
long as the constants in it correspond to themselves.
-/

namespace PointFree

/-! ### Constants -/

/-- Every constant in the tree is as required. -/
inductive Node.AllConstants (holds : Value → Prop) : Node → Prop where
  | constant {value : Value} : holds value → AllConstants holds (.constant value)
  | closure (block : Nat) : AllConstants holds (.closure block)
  | load (depth slot : Nat) : AllConstants holds (.load depth slot)
  | list {items : List Node} :
      (∀ item ∈ items, AllConstants holds item) → AllConstants holds (.list items)
  | call {right function : Node} :
      AllConstants holds right → AllConstants holds function →
      AllConstants holds (.call right function)
  | callBoth {right function left : Node} :
      AllConstants holds right → AllConstants holds function → AllConstants holds left →
      AllConstants holds (.callBoth right function left)
  | atop {right left : Node} :
      AllConstants holds right → AllConstants holds left → AllConstants holds (.atop right left)
  | fork {right middle left : Node} :
      AllConstants holds right → AllConstants holds middle → AllConstants holds left →
      AllConstants holds (.fork right middle left)
  | modifyOne (modifier : OneModifier) {operand : Node} :
      AllConstants holds operand → AllConstants holds (.modifyOne modifier operand)
  | modifyTwo (modifier : TwoModifier) {right left : Node} :
      AllConstants holds right → AllConstants holds left →
      AllConstants holds (.modifyTwo modifier right left)
  | define {value : Node} (place : Place) :
      AllConstants holds value → AllConstants holds (.define value place)
  | assign {value : Node} (place : Place) :
      AllConstants holds value → AllConstants holds (.assign value place)
  | updateWith {argument function : Node} (place : Place) :
      AllConstants holds argument → AllConstants holds function →
      AllConstants holds (.updateWith argument function place)
  | update {function : Node} (place : Place) :
      AllConstants holds function → AllConstants holds (.update function place)

inductive Step.AllConstants (holds : Value → Prop) : Step → Prop where
  | evaluate {node : Node} (span : Option Span) :
      node.AllConstants holds → AllConstants holds (.evaluate node span)
  | guard {test fallback : Node} (span : Option Span) :
      test.AllConstants holds → fallback.AllConstants holds →
      AllConstants holds (.guard test fallback span)
  | finish {node : Node} (span : Option Span) :
      node.AllConstants holds → AllConstants holds (.finish node span)

/-- The statement that a step belongs to. -/
def Step.span : Step → Option Span
  | .evaluate _ span | .guard _ _ span | .finish _ span => span

def Routine.AllConstants (holds : Value → Prop) (routine : Routine) : Prop :=
  ∀ step ∈ routine.steps, step.AllConstants holds

section Implication

variable {holds holds' : Value → Prop} (weaken : ∀ {value}, holds value → holds' value)

include weaken

theorem Node.AllConstants.imp {node : Node} (all : node.AllConstants holds) :
    node.AllConstants holds' := by
  induction all with
  | constant here => exact .constant (weaken here)
  | closure block => exact .closure block
  | load depth slot => exact .load depth slot
  | list _ items => exact .list items
  | call _ _ right function => exact .call right function
  | callBoth _ _ _ right function left => exact .callBoth right function left
  | atop _ _ right left => exact .atop right left
  | fork _ _ _ right middle left => exact .fork right middle left
  | modifyOne modifier _ operand => exact .modifyOne modifier operand
  | modifyTwo modifier _ _ right left => exact .modifyTwo modifier right left
  | define place _ value => exact .define place value
  | assign place _ value => exact .assign place value
  | updateWith place _ _ argument function => exact .updateWith place argument function
  | update place _ function => exact .update place function

theorem Step.AllConstants.imp {step : Step} (all : step.AllConstants holds) :
    step.AllConstants holds' := by
  cases all with
  | evaluate span node => exact .evaluate span (node.imp weaken)
  | guard span test fallback => exact .guard span (test.imp weaken) (fallback.imp weaken)
  | finish span node => exact .finish span (node.imp weaken)

theorem Routine.AllConstants.imp {routine : Routine} (all : routine.AllConstants holds) :
    routine.AllConstants holds' :=
  fun step member => (all step member).imp weaken

end Implication

section Everything

variable {holds : Value → Prop}

mutual

theorem Node.AllConstants.of_forall (everything : ∀ value, holds value) :
    ∀ node : Node, node.AllConstants holds
  | .constant value => .constant (everything value)
  | .closure block => .closure block
  | .load depth slot => .load depth slot
  | .list items => .list (Node.AllConstants.each_of_forall everything items)
  | .call right function => .call (.of_forall everything right) (.of_forall everything function)
  | .callBoth right function left =>
      .callBoth (.of_forall everything right) (.of_forall everything function)
        (.of_forall everything left)
  | .atop right left => .atop (.of_forall everything right) (.of_forall everything left)
  | .fork right middle left =>
      .fork (.of_forall everything right) (.of_forall everything middle)
        (.of_forall everything left)
  | .modifyOne modifier operand => .modifyOne modifier (.of_forall everything operand)
  | .modifyTwo modifier right left =>
      .modifyTwo modifier (.of_forall everything right) (.of_forall everything left)
  | .define value place => .define place (.of_forall everything value)
  | .assign value place => .assign place (.of_forall everything value)
  | .updateWith argument function place =>
      .updateWith place (.of_forall everything argument) (.of_forall everything function)
  | .update function place => .update place (.of_forall everything function)
termination_by structural node => node

theorem Node.AllConstants.each_of_forall (everything : ∀ value, holds value) :
    ∀ nodes : List Node, ∀ node ∈ nodes, node.AllConstants holds
  | node :: nodes =>
      List.forall_mem_cons.2
        ⟨.of_forall everything node, Node.AllConstants.each_of_forall everything nodes⟩
  | [] => nofun
termination_by structural nodes => nodes

end

theorem Routine.AllConstants.of_forall (everything : ∀ value, holds value) (routine : Routine) :
    routine.AllConstants holds := by
  intro step _
  cases step with
  | evaluate node span => exact .evaluate span (.of_forall everything node)
  | guard test fallback span =>
      exact .guard span (.of_forall everything test) (.of_forall everything fallback)
  | finish node span => exact .finish span (.of_forall everything node)

end Everything

namespace Correspondence

variable {H K : Type} {c : Correspondence H K} {W : c.World}

/-! ### Slots of new frames -/

/-- The slots of a new frame: the function, its arguments and no variable set yet. -/
theorem Rows.slots (routine : Routine) {this this' : Function} {right right' : Value}
    {left left' : Option Value} (functions : c.Functions W this this')
    (rights : c.Values W right right') (lefts : Options c.Values W left left') :
    Rows (Options c.Values) W (routine.slots this right left)
      (routine.slots this' right' left') := by
  rw [Routine.slots, Routine.slots]
  show Lists (Options c.Values) W (Array.toList _) (Array.toList _)
  simp only [Array.toList_setIfInBounds]
  have empty : Rows (Options c.Values) W (Array.replicate routine.frameSize none)
    (Array.replicate routine.frameSize none) := Rows.replicate _ .none
  have first := set_of_forall₂ empty 0 (.some (.function functions))
  exact set_of_forall₂ (set_of_forall₂ first 1 (.some rights)) 2 lefts

theorem Rows.topSlots (frameSize : Nat) {globals globals' : Array Value}
    (rows : Rows c.Values W globals globals') :
    Rows (Options c.Values) W (Machine.topSlots frameSize globals)
      (Machine.topSlots frameSize globals') := by
  rw [Machine.topSlots, Machine.topSlots]
  show Lists (Options c.Values) W (Array.toList _) (Array.toList _)
  refine List.forall₂_map_left_iff.2 (List.forall₂_map_right_iff.2 ?_)
  refine List.forall₂_same.2 fun slot _ => ?_
  split
  · exact .none
  · exact rows.getElem? _

/-! ### Frames -/

section Frames

variable [Activations H] [Activations K]

/-- Frames have the same numbers on both sides and keep corresponding values alike. -/
class Framing (c : Correspondence H K) : Prop where
  load {W : c.World} (frame depth slot : Nat) :
    c.Actions W c.Values (Activations.load frame depth slot) (Activations.load frame depth slot)
  save {W : c.World} (fresh : Bool) (frame depth slot : Nat) {value value' : Value} :
    c.Values W value value' →
      c.Actions W c.Same (Activations.save fresh frame depth slot value)
        (Activations.save fresh frame depth slot value')
  newFrame {W : c.World} (parent : Option Nat) {slots slots' : Array (Option Value)} :
    Rows (Options c.Values) W slots slots' →
      c.Actions W c.Same (Activations.newFrame slots parent)
        (Activations.newFrame slots' parent)

/-- What is reached from the one frame and from the other is alike. -/
structure Abreast (c : Correspondence H K) (W : c.World) (frame frame' : Nat) : Prop where
  load (depth slot : Nat) :
    c.Actions W c.Values (Activations.load frame depth slot) (Activations.load frame' depth slot)
  save (fresh : Bool) (depth slot : Nat) {V : c.World} {value value' : Value} :
    W ≤ V → c.Values V value value' →
      c.Actions V c.Same (Activations.save fresh frame depth slot value)
        (Activations.save fresh frame' depth slot value')

theorem Abreast.mono {W V : c.World} {frame frame' : Nat} (later : W ≤ V)
    (abreast : c.Abreast W frame frame') : c.Abreast V frame frame' where
  load depth slot := (abreast.load depth slot).mono later
  save fresh depth slot _ _ _ after := abreast.save fresh depth slot (le_trans later after)

theorem Framing.abreast [Framing c] (frame : Nat) : c.Abreast W frame frame where
  load := Framing.load frame
  save fresh depth slot _ _ _ _ := Framing.save fresh frame depth slot

mutual

theorem Actions.store (fresh : Bool) {frame frame' : Nat} {W : c.World}
    (abreast : c.Abreast W frame frame') : ∀ (place : Place) {value value' : Value},
    c.Values W value value' →
    c.Actions W c.Same (place.save fresh frame value) (place.save fresh frame' value')
  | .slot depth slot, _, _, values => abreast.save fresh depth slot le_rfl values
  | .list places, _, _, .number _ => Actions.refuse rfl
  | .list places, _, _, .character _ => Actions.refuse rfl
  | .list places, _, _, .function _ => Actions.refuse rfl
  | .list places, _, _, .array arrays => by
      rw [Place.save, Place.save]
      refine Actions.bind arrays.majorCells fun later row row' rows => ?_
      rw [rows.size_eq]
      split
      · exact Actions.storeEach fresh (abreast.mono later) places rows
      · exact Actions.refuse rfl

theorem Actions.storeEach (fresh : Bool) {frame frame' : Nat} {W : c.World}
    (abreast : c.Abreast W frame frame') : ∀ (places : List Place) {values values' : List Value},
    Lists c.Values W values values' →
    c.Actions W c.Same (Place.saveEach fresh frame places values)
      (Place.saveEach fresh frame' places values')
  | [], _, _, .nil => Actions.pure rfl
  | [], _, _, .cons _ _ => Actions.pure rfl
  | _ :: _, _, _, .nil => Actions.pure rfl
  | place :: places, _, _, .cons first others => by
      refine Actions.bind (Actions.store fresh abreast place first) fun later _ _ _ => ?_
      exact Actions.storeEach fresh (abreast.mono later) places (Lists.mono later others)

end

/-- The value of a statement that stores it. -/
theorem Actions.stored (fresh : Bool) {frame frame' : Nat} {W : c.World}
    (abreast : c.Abreast W frame frame') (place : Place) {value value' : Value}
    (values : c.Values W value value') :
    c.Actions W c.Values
      (do
        place.save fresh frame value
        return value)
      (do
        place.save fresh frame' value'
        return value') := by
  refine Actions.bind (Actions.store fresh abreast place values) ?_
  exact fun later _ _ _ => Actions.pure (values.mono later)

theorem Actions.current {frame frame' : Nat} (abreast : c.Abreast W frame frame')
    (place : Place) : c.Actions W c.Values (place.load frame) (place.load frame') := by
  cases place with
  | slot depth slot => exact abreast.load depth slot
  | list places => exact Actions.refuse rfl

/-! ### Evaluation -/

section Evaluation

variable {program program' frame frame' : Nat}

mutual

theorem Actions.node (may : c.callable) (abreast : c.Abreast W frame frame')
    (closures : ∀ block, c.blocks W program block frame program' block frame') : ∀ node : Node,
    (node.AllConstants fun value => c.Values W value value) →
      c.Actions W c.Values (node.evaluate program frame) (node.evaluate program' frame')
  | .constant _, .constant values => Actions.pure values
  | .closure block, .closure _ => Actions.function (Actions.make (.block (closures block)))
  | .load depth slot, .load _ _ => abreast.load depth slot
  | .list items, .list known => by
      refine Actions.bind (Actions.nodes may abreast closures items known) fun _ _ _ lists => ?_
      exact Actions.pure (Values.list lists)
  | .call right function, .call rightKnown functionKnown => by
      refine Actions.bind (Actions.node may abreast closures right rightKnown) ?_
      intro _ first _ _ arguments
      refine Actions.bind ((Actions.node may abreast closures function functionKnown).mono first) ?_
      exact fun second _ _ operators => operators.call (arguments.mono second) .none may
  | .callBoth right function left, .callBoth rightKnown functionKnown leftKnown => by
      refine Actions.bind (Actions.node may abreast closures right rightKnown) ?_
      intro _ first _ _ arguments
      refine Actions.bind ((Actions.node may abreast closures function functionKnown).mono first) ?_
      intro _ second _ _ operators
      have since := le_trans first second
      refine Actions.bind ((Actions.node may abreast closures left leftKnown).mono since) ?_
      intro _ third _ _ others
      exact (operators.mono third).call (arguments.mono (le_trans second third)) (.some others) may
  | .atop right left, .atop rightKnown leftKnown => by
      refine Actions.bind (Actions.node may abreast closures right rightKnown) ?_
      intro _ first _ _ seconds
      refine Actions.bind seconds.toFunction fun second _ _ inner => ?_
      have since := le_trans first second
      refine Actions.bind ((Actions.node may abreast closures left leftKnown).mono since) ?_
      intro _ third _ _ firsts
      refine Actions.bind firsts.toFunction fun fourth _ _ outer => ?_
      exact Actions.function (Actions.make (.atop outer (inner.mono (le_trans third fourth))))
  | .fork right middle left, .fork rightKnown middleKnown leftKnown => by
      refine Actions.bind (Actions.node may abreast closures right rightKnown) ?_
      intro _ first _ _ thirds
      refine Actions.bind thirds.toFunction fun second _ _ after => ?_
      have since := le_trans first second
      refine Actions.bind ((Actions.node may abreast closures middle middleKnown).mono since) ?_
      intro _ third _ _ seconds
      refine Actions.bind seconds.toFunction fun fourth _ _ between => ?_
      have meanwhile := le_trans third fourth
      refine Actions.bind ((Actions.node may abreast closures left leftKnown).mono
        (le_trans since meanwhile)) ?_
      intro _ fifth _ _ firsts
      refine Actions.bind firsts.toFunction fun sixth _ _ before => ?_
      have last := le_trans fifth sixth
      exact Actions.function (Actions.make
        (.fork before (between.mono last) (after.mono (le_trans meanwhile last))))
  | .modifyOne modifier operand, .modifyOne _ operandKnown => by
      refine Actions.bind (Actions.node may abreast closures operand operandKnown) ?_
      exact fun _ _ _ operands => Actions.function (operands.modifyOne modifier)
  | .modifyTwo modifier right left, .modifyTwo _ rightKnown leftKnown => by
      refine Actions.bind (Actions.node may abreast closures right rightKnown) ?_
      intro _ first _ _ seconds
      refine Actions.bind ((Actions.node may abreast closures left leftKnown).mono first) ?_
      intro _ second _ _ firsts
      exact Actions.function (firsts.modifyTwo modifier (seconds.mono second))
  | .define value place, .define _ valueKnown => by
      refine Actions.bind (Actions.node may abreast closures value valueKnown) ?_
      intro _ first _ _ values
      exact Actions.stored true (abreast.mono first) place values
  | .assign value place, .assign _ valueKnown => by
      refine Actions.bind (Actions.node may abreast closures value valueKnown) ?_
      intro _ first _ _ values
      exact Actions.stored false (abreast.mono first) place values
  | .updateWith argument function place, .updateWith _ argumentKnown functionKnown => by
      refine Actions.bind (Actions.node may abreast closures argument argumentKnown) ?_
      intro _ first _ _ operands
      refine Actions.bind
        ((Actions.node may abreast closures function functionKnown).mono first) ?_
      intro _ second _ _ operators
      have since := le_trans first second
      refine Actions.bind (Actions.current (abreast.mono since) place) fun third _ _ currents => ?_
      refine Actions.bind ((operators.mono third).call (operands.mono (le_trans second third))
        (.some currents) may) fun fourth _ _ values => ?_
      have last := le_trans since (le_trans third fourth)
      exact Actions.stored false (abreast.mono last) place values
  | .update function place, .update _ functionKnown => by
      refine Actions.bind (Actions.node may abreast closures function functionKnown) ?_
      intro _ first _ _ operators
      refine Actions.bind (Actions.current (abreast.mono first) place) fun second _ _ currents => ?_
      refine Actions.bind ((operators.mono second).call currents .none may) ?_
      intro _ third _ _ values
      have last := le_trans first (le_trans second third)
      exact Actions.stored false (abreast.mono last) place values
termination_by structural node => node

theorem Actions.nodes (may : c.callable) (abreast : c.Abreast W frame frame')
    (closures : ∀ block, c.blocks W program block frame program' block frame') :
    ∀ nodes : List Node,
      (∀ node ∈ nodes, node.AllConstants fun value => c.Values W value value) →
      c.Actions W (Lists c.Values) (Node.evaluateEach program frame nodes)
        (Node.evaluateEach program' frame' nodes)
  | [], _ => Actions.pure .nil
  | node :: nodes, known => by
      obtain ⟨here, others⟩ := List.forall_mem_cons.1 known
      refine Actions.bind (Actions.node may abreast closures node here) fun first _ _ values => ?_
      refine Actions.bind ((Actions.nodes may abreast closures nodes others).mono first) ?_
      exact fun second _ _ lists => Actions.pure (.cons (values.mono second) lists)
termination_by structural nodes => nodes

end

theorem Actions.steps (may : c.callable) (block : Nat) (abreast : c.Abreast W frame frame')
    (closures : ∀ block, c.blocks W program block frame program' block frame') {steps : List Step}
    (known : ∀ step ∈ steps, step.AllConstants fun value => c.Values W value value)
    (spanned : ∀ step ∈ steps, c.spans step.span := by exact fun _ _ => trivial) :
    c.Actions W c.Values (Step.execute block program frame steps)
      (Step.execute block program' frame' steps) := by
  induction steps with
  | nil => exact Actions.refuse rfl
  | cons step rest inductionHypothesis =>
      obtain ⟨here, others⟩ := List.forall_mem_cons.1 known
      obtain ⟨inside, remaining⟩ := List.forall_mem_cons.1 spanned
      have later := inductionHypothesis others remaining
      cases here with
      | @evaluate node span nodeKnown =>
          have first := Actions.node may abreast closures node nodeKnown
          refine Actions.bind (Actions.located span first inside) ?_
          exact fun after _ _ _ => later.mono after
      | @guard test fallback span testKnown fallbackKnown =>
          have decides : c.Actions W c.Same
              (do
                let tested ← test.evaluate program frame
                guardNumber tested)
              (do
                let tested ← test.evaluate program' frame'
                guardNumber tested) :=
            Actions.bind (Actions.node may abreast closures test testKnown) fun _ _ _ values =>
              Actions.lift values.guardNumber
          refine Actions.bind (Actions.located span decides inside) fun after _ _ same => ?_
          cases same
          split
          · have otherwise := Actions.node may abreast closures fallback fallbackKnown
            exact (Actions.located span otherwise inside).mono after
          · exact later.mono after
      | @finish node span nodeKnown =>
          exact Actions.located span (Actions.node may abreast closures node nodeKnown) inside

end Evaluation

end Frames

end Correspondence

end PointFree
