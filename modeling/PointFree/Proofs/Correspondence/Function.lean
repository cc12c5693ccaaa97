import PointFree.Function.Call
import PointFree.Proofs.Correspondence.Operation

/-!
Contract: functions that correspond.

Making functions goes the same way on both sides. So does calling them, as soon
as entering blocks does: `Calls.callAt` closes the circle between the two by
induction on the budget of calls.
-/

namespace PointFree.Correspondence

variable {H K : Type} {c : Correspondence H K} {W : c.World}

/-! ### Making functions -/

mutual

theorem Functions.hasInverse_eq {function function' : Function} :
    c.Functions W function function' → function.hasInverse = function'.hasInverse
  | .mk _ forms => forms.hasInverse_eq

theorem Forms.hasInverse_eq {form form' : Form} :
    c.Forms W form form' → form.hasInverse = form'.hasInverse
  | .primitive _ => rfl
  | .constant _ _ => rfl
  | .atop left right => congrArg₂ and left.hasInverse_eq right.hasInverse_eq
  | .fork _ _ _ => rfl
  | .over _ _ => rfl
  | .under left _ => left.hasInverse_eq
  | .rank _ _ => rfl
  | .before _ _ => rfl
  | .after _ _ => rfl
  | .swap _ => rfl
  | .each operand => operand.hasInverse_eq
  | .table _ => rfl
  | .cells _ => rfl
  | .fold _ => rfl
  | .scan _ => rfl
  | .inverse _ => rfl
  | .block _ => rfl

end

theorem Outcomes.requireInverse {function function' : Function}
    (functions : c.Functions W function function') :
    c.Outcomes (c.Functions W) function.requireInverse function'.requireInverse := by
  rw [Function.requireInverse, Function.requireInverse, functions.hasInverse_eq]
  split
  · exact .ok functions
  · exact .error (.ofFault (c.faults_noInverse functions.name))

theorem Actions.constant {content content' : Value} (values : c.Values W content content') :
    c.Actions W c.Functions (Function.constant content) (Function.constant content') := by
  refine Actions.bind values.text fun later _ _ texts => ?_
  exact Actions.make (.constant (values.mono later) texts)

theorem Values.toFunction {value value' : Value} (values : c.Values W value value') :
    c.Actions W c.Functions value.toFunction value'.toFunction := by
  cases values with
  | number number => exact Actions.constant (.number number)
  | character letter => exact Actions.constant (.character letter)
  | array arrays => exact Actions.constant (.array arrays)
  | function functions => exact Actions.pure functions

theorem Values.modifyOne (modifier : OneModifier) {operand operand' : Value}
    (values : c.Values W operand operand') :
    c.Actions W c.Functions (modifier.apply operand) (modifier.apply operand') := by
  refine Actions.bind values.toFunction fun later _ _ functions => ?_
  cases modifier with
  | constant => exact Actions.constant (values.mono later)
  | swap => exact Actions.make (.swap functions)
  | each => exact Actions.make (.each functions)
  | table => exact Actions.make (.table functions)
  | cells => exact Actions.make (.cells functions)
  | fold => exact Actions.make (.fold functions)
  | scan => exact Actions.make (.scan functions)
  | undo =>
      refine Actions.bind (Actions.lift (Outcomes.requireInverse functions)) ?_
      exact fun _ _ _ invertible => Actions.make (.inverse invertible)

theorem Values.modifyTwo (modifier : TwoModifier) {left left' right right' : Value}
    (lefts : c.Values W left left') (rights : c.Values W right right') :
    c.Actions W c.Functions (modifier.apply left right) (modifier.apply left' right') := by
  refine Actions.bind lefts.toFunction fun later _ _ firsts => ?_
  refine Actions.bind (rights.mono later).toFunction fun after _ _ seconds => ?_
  have firsts := firsts.mono after
  match modifier with
  | .atop => exact Actions.make (.atop firsts seconds)
  | .over => exact Actions.make (.over firsts seconds)
  | .under =>
      refine Actions.bind (Actions.lift (Outcomes.requireInverse seconds)) ?_
      exact fun before _ _ invertible => Actions.make (.under (firsts.mono before) invertible)
  | .rank => exact Actions.make (.rank firsts seconds)
  | .before => exact Actions.make (.before firsts seconds)
  | .after => exact Actions.make (.after firsts seconds)

theorem Actions.function {action : Action H Function}
    {action' : Action K Function}
    (actions : c.Actions W c.Functions action action') :
    c.Actions W c.Values (do let function ← action; return Value.function function)
      (do let function ← action'; return Value.function function) :=
  Actions.bind actions fun _ _ _ functions => Actions.pure (.function functions)

/-! ### Calling functions -/

theorem Values.call {operator operator' right right' : Value} {left left' : Option Value}
    (operators : c.Values W operator operator') (rights : c.Values W right right')
    (lefts : Options c.Values W left left') (may : c.callable := by exact trivial) :
    c.Actions W c.Values (operator.call right left)
      (operator'.call right' left') := by
  cases operators with
  | number number => exact Actions.pure (.number number)
  | character letter => exact Actions.pure (.character letter)
  | array arrays => exact Actions.pure (.array arrays)
  | function functions => exact Actions.call may functions rights lefts

theorem Options.getD {left left' : Option Value} {right right' : Value}
    (lefts : Options c.Values W left left') (rights : c.Values W right right') :
    c.Values W (left.getD right) (left'.getD right') := by
  cases lefts with
  | none => exact rights
  | some lefts => exact lefts

theorem Values.guardNumber {tested tested' : Value} (values : c.Values W tested tested') :
    c.Outcomes (c.Same W) (PointFree.guardNumber tested) (PointFree.guardNumber tested') := by
  cases values with
  | number number => exact .ok rfl
  | character letter => exact .refuse rfl
  | array arrays => exact .refuse rfl
  | function functions => exact .refuse rfl

theorem Forms.refuseInverse {form form' : Form} (forms : c.Forms W form form') {V : c.World} :
    c.Actions V c.Values (Action.refuse (.noInverse form.name))
      (Action.refuse (.noInverse form'.name)) :=
  Actions.refuseAlike (c.faults_noInverse forms.name)

variable [Blocks H] [Blocks K]

/-- Entering corresponding blocks goes the same way. -/
def Enters (c : Correspondence H K) : Prop :=
  ∀ {W stamp stamp' program block frame program' block' frame'}, c.stamps W stamp stamp' →
    c.blocks W program block frame program' block' frame' →
    c.Operations W
      (Blocks.enter program block frame (.mk stamp (.block program block frame)))
      (Blocks.enter program' block' frame' (.mk stamp' (.block program' block' frame')))

mutual

theorem Functions.apply (enters : Enters c) {function function' : Function} :
    c.Functions W function function' → ∀ direction,
      c.Operations W (function.apply direction) (function'.apply direction)
  | .mk stamps forms, direction => forms.apply enters stamps direction

theorem Forms.apply (enters : Enters c) {stamp stamp' : Nat} {form form' : Form} :
    c.Forms W form form' → c.stamps W stamp stamp' → ∀ direction,
      c.Operations W (form.apply stamp direction) (form'.apply stamp' direction)
  | .primitive primitive, _, .forward => fun _ _ _ _ _ _ rights lefts =>
      Actions.dispatch primitive (Monads.forward primitive) (Dyads.forward primitive) rights lefts
  | .primitive primitive, _, .backward => fun _ _ _ _ _ _ rights lefts => by
      rw [Form.apply, Form.apply]
      split
      · exact Actions.dispatch primitive (Monads.backward primitive) (Dyads.backward primitive)
          rights lefts
      · exact (Forms.primitive (W := W) primitive).refuseInverse
  | .constant values _, _, .forward => fun _ later _ _ _ _ _ _ => Actions.pure (values.mono later)
  | .constant values texts, _, .backward => fun _ _ _ _ _ _ _ _ =>
      (Forms.constant values texts).refuseInverse
  | .atop outer inner, _, .forward => fun _ later _ _ _ _ rights lefts => by
      refine Actions.bind (inner.apply enters .forward later rights lefts) ?_
      exact fun after _ _ between =>
        outer.apply enters .forward (le_trans later after) between .none
  | .atop outer inner, _, .backward => fun _ later _ _ _ _ rights lefts => by
      rw [Form.apply, Form.apply, outer.hasInverse_eq, inner.hasInverse_eq]
      split
      · refine Actions.bind (outer.apply enters .backward later rights .none) ?_
        exact fun after _ _ between =>
          inner.apply enters .backward (le_trans later after) between (lefts.mono after)
      · exact (Forms.atop outer inner).refuseInverse
  | .fork before middle after, _, .forward => fun _ later _ _ _ _ rights lefts => by
      refine Actions.bind (after.apply enters .forward later rights lefts) ?_
      intro _ next _ _ seconds
      have present := le_trans later next
      refine Actions.bind
        (before.apply enters .forward present (rights.mono next) (lefts.mono next)) ?_
      exact fun last _ _ firsts =>
        middle.apply enters .forward (le_trans present last) (seconds.mono last) (.some firsts)
  | .fork before middle after, _, .backward => fun _ _ _ _ _ _ _ _ =>
      (Forms.fork before middle after).refuseInverse
  | .over outer inner, _, .forward => fun _ later _ _ _ _ rights lefts => by
      refine Actions.bind (inner.apply enters .forward later rights .none) ?_
      intro _ next _ _ seconds
      have present := le_trans later next
      cases lefts with
      | none => exact outer.apply enters .forward present seconds .none
      | some lefts =>
          refine Actions.bind (inner.apply enters .forward present (lefts.mono next) .none) ?_
          exact fun last _ _ firsts =>
            outer.apply enters .forward (le_trans present last) (seconds.mono last)
              (.some firsts)
  | .over outer inner, _, .backward => fun _ _ _ _ _ _ _ _ =>
      (Forms.over outer inner).refuseInverse
  | .under work guise, _, .forward => fun _ later _ _ _ _ rights lefts => by
      refine Actions.bind (guise.apply enters .forward later rights lefts) ?_
      intro _ next _ _ inside
      have present := le_trans later next
      refine Actions.bind (work.apply enters .forward present inside .none) ?_
      exact fun last _ _ worked =>
        guise.apply enters .backward (le_trans present last) worked .none
  | .under work guise, _, .backward => fun _ later _ _ _ _ rights lefts => by
      rw [Form.apply, Form.apply, work.hasInverse_eq]
      split
      · refine Actions.bind (guise.apply enters .forward later rights lefts) ?_
        intro _ next _ _ inside
        have present := le_trans later next
        refine Actions.bind (work.apply enters .backward present inside .none) ?_
        exact fun last _ _ worked =>
          guise.apply enters .backward (le_trans present last) worked .none
      · exact (Forms.under work guise).refuseInverse
  | .rank operand degree, _, .forward => fun _ later _ _ _ _ rights lefts => by
      refine Actions.bind (degree.apply enters .forward later rights lefts) ?_
      intro _ next _ _ asked
      refine Actions.bind (Actions.lift asked.toInteger) fun last rank _ same => ?_
      cases same
      have present := le_trans later (le_trans next last)
      exact Operations.atRank ((operand.apply enters .forward).mono present) rank
        (rights.mono (le_trans next last)) (lefts.mono (le_trans next last))
  | .rank operand degree, _, .backward => fun _ _ _ _ _ _ _ _ =>
      (Forms.rank operand degree).refuseInverse
  | .before early late, _, .forward => fun _ later _ _ _ _ rights lefts => by
      refine Actions.bind (early.apply enters .forward later (lefts.getD rights) .none) ?_
      exact fun after _ _ firsts =>
        late.apply enters .forward (le_trans later after) (rights.mono after) (.some firsts)
  | .before early late, _, .backward => fun _ _ _ _ _ _ _ _ =>
      (Forms.before early late).refuseInverse
  | .after late early, _, .forward => fun _ later _ _ _ _ rights lefts => by
      refine Actions.bind (early.apply enters .forward later rights .none) ?_
      exact fun next _ _ seconds =>
        late.apply enters .forward (le_trans later next) seconds
          (.some ((lefts.getD rights).mono next))
  | .after late early, _, .backward => fun _ _ _ _ _ _ _ _ =>
      (Forms.after late early).refuseInverse
  | .swap operand, _, .forward => fun _ later _ _ _ _ rights lefts =>
      operand.apply enters .forward later (lefts.getD rights) (.some rights)
  | .swap operand, _, .backward => fun _ _ _ _ _ _ _ _ => (Forms.swap operand).refuseInverse
  | .each operand, _, .forward => fun _ later _ _ _ _ rights lefts =>
      ((operand.apply enters .forward).mono later).each rights lefts
  | .each operand, _, .backward => fun _ later _ _ _ _ rights lefts => by
      rw [Form.apply, Form.apply, operand.hasInverse_eq]
      split
      · exact ((operand.apply enters .backward).mono later).each rights lefts
      · exact (Forms.each operand).refuseInverse
  | .table operand, _, .forward => fun _ later _ _ _ _ rights lefts =>
      ((operand.apply enters .forward).mono later).table rights lefts
  | .table operand, _, .backward => fun _ _ _ _ _ _ _ _ => (Forms.table operand).refuseInverse
  | .cells operand, _, .forward => fun _ later _ _ _ _ rights lefts =>
      ((operand.apply enters .forward).mono later).cells rights lefts
  | .cells operand, _, .backward => fun _ _ _ _ _ _ _ _ => (Forms.cells operand).refuseInverse
  | .fold operand, _, .forward => fun _ later _ _ _ _ rights lefts =>
      ((operand.apply enters .forward).mono later).fold rights lefts
  | .fold operand, _, .backward => fun _ _ _ _ _ _ _ _ => (Forms.fold operand).refuseInverse
  | .scan operand, _, .forward => fun _ later _ _ _ _ rights lefts =>
      ((operand.apply enters .forward).mono later).scan rights lefts
  | .scan operand, _, .backward => fun _ _ _ _ _ _ _ _ => (Forms.scan operand).refuseInverse
  | .inverse operand, _, .forward => operand.apply enters .backward
  | .inverse operand, _, .backward => operand.apply enters .forward
  | .block blocks, stamps, .forward => enters stamps blocks
  | .block blocks, _, .backward => fun _ _ _ _ _ _ _ _ => (Forms.block blocks).refuseInverse

end

/-- Calls with any budget go the same way. -/
theorem Calls.callAt (enters : Enters c) (budget : Nat)
    (unrestricted : ∀ calling calling', c.restricts calling calling' := by
      exact fun _ _ => trivial) :
    c.Calls W (PointFree.callAt budget) (PointFree.callAt budget) := by
  induction budget generalizing W with
  | zero =>
      exact ⟨fun _ V _ _ _ _ _ _ _ _ _ _ _ _ memories =>
        .inr ⟨V, le_rfl, memories, .refuse (A := c.Values V) rfl⟩, unrestricted _ _⟩
  | succ budget inductionHypothesis =>
      refine ⟨fun _ V later function function' right right' left left' functions rights lefts => ?_,
        unrestricted _ _⟩
      exact functions.apply enters .forward le_rfl rights lefts le_rfl inductionHypothesis

/-- What actions do of themselves they also do with all their calls. -/
theorem Actions.perform {α α' : Type} {A : c.World → α → α' → Prop} {action : Action H α}
    {action' : Action K α'} (enters : Enters c) (actions : c.Actions W A action action')
    {memory : Memory H} {memory' : Memory K} (memories : c.memories W memory memory')
    (unrestricted : ∀ calling calling', c.restricts calling calling' := by
      exact fun _ _ => trivial) :
    c.Ends W A (action.perform memory) (action'.perform memory') :=
  actions le_rfl (.callAt enters callBudget unrestricted) memories

end PointFree.Correspondence
