import PointFree.Proofs.Compilation.Replay
import PointFree.Proofs.Stepping.Order

/-!
Contract: what code does on the stack.

The code of an expression computes a value and pushes it, whatever it finds on the
stack. What it does to compute the value agrees with what the node does that the code is
loaded as.
-/

namespace PointFree

open Correspondence

namespace Operand

theorem values?_map (pushed found : List Value) (stack : List Operand) :
    values? pushed.length found (pushed.map value ++ stack) =
      some (pushed.reverse ++ found, stack) := by
  induction pushed generalizing found with
  | nil => rfl
  | cons top pushed inductionHypothesis =>
      rw [List.map_cons, List.cons_append, List.length_cons, values?, inductionHypothesis,
        List.reverse_cons, List.append_assoc]
      rfl

theorem places?_map (pushed found : List Place) (stack : List Operand) :
    places? pushed.length found (pushed.map place ++ stack) =
      some (pushed.reverse ++ found, stack) := by
  induction pushed generalizing found with
  | nil => rfl
  | cons top pushed inductionHypothesis =>
      rw [List.map_cons, List.cons_append, List.length_cons, places?, inductionHypothesis,
        List.reverse_cons, List.append_assoc]
      rfl

end Operand

namespace Stepping

/-! ### Code that pushes -/

section Pushing

variable {H : Type} [Activations H] {constants : Array Value} {program frame : Nat}

/-- Code that does what an action does and pushes its result. -/
def Computes (constants : Array Value) (program frame : Nat) (code : List Instruction)
    (action : Action H Value) : Prop :=
  ∀ (position : Nat) (stack : List Operand),
    runCode (Instruction.step constants program frame) position code stack = (do
      let value ← action
      return .value value :: stack)

/-- Code that pushes a place and does nothing else. -/
def Names (H : Type) [Activations H] (constants : Array Value) (program frame : Nat)
    (code : List Instruction) (place : Place) : Prop :=
  ∀ (position : Nat) (stack : List Operand),
    runCode (Instruction.step (H := H) constants program frame) position code stack =
      pure (.place place :: stack)

theorem Computes.append {code : List Instruction} {action : Action H Value}
    (computes : Computes constants program frame code action) (rest : List Instruction)
    (position : Nat) (stack : List Operand) :
    runCode (Instruction.step constants program frame) position (code ++ rest) stack = (do
      let value ← action
      runCode (Instruction.step constants program frame) (position + codeWidth code) rest
        (.value value :: stack)) := by
  rw [runCode_append, computes, bind_assoc]
  exact congrArg (action >>= ·) (funext fun value => pure_bind _ _)

theorem Names.append {code : List Instruction} {place : Place}
    (names : Names H constants program frame code place) (rest : List Instruction)
    (position : Nat) (stack : List Operand) :
    runCode (Instruction.step (H := H) constants program frame) position (code ++ rest) stack =
      runCode (Instruction.step constants program frame) (position + codeWidth code) rest
        (.place place :: stack) := by
  rw [runCode_append, names, pure_bind]

theorem Computes.push {place : Nat} {value : Value} (found : constants[place]? = some value) :
    Computes constants program frame [.push place] (pure value : Action H Value) := by
  intro position stack
  rw [runCode_singleton, Instruction.step, found, pure_bind]

theorem Computes.load (depth slot : Nat) :
    Computes constants program frame [.load depth slot]
      (Activations.load frame depth slot : Action H Value) :=
  fun _ _ => runCode_singleton _ _ _

theorem Computes.closure (number : Nat) :
    Computes constants program frame [.closure number]
      (do
        let function ← Action.make (.block program number frame)
        return .function function : Action H Value) := by
  intro position stack
  rw [runCode_singleton, Instruction.step, bind_assoc]
  exact congrArg (_ >>= ·) (funext fun function => (pure_bind _ _).symm)

end Pushing

end Stepping

/-! ### Targets -/

section Targets

open Stepping

variable {H : Type} [Activations H] {constants : Array Value} {program frame : Nat}
variable {scopes : List Scope}

mutual

theorem Target.Lowers.names : ∀ {target : Target} {code : List Instruction} {place : Place},
    target.Lowers scopes code place → Names H constants program frame code place
  | _, _, _, .name _ => fun _ _ => runCode_singleton _ _ _
  | _, _, _, .list targets => fun position stack =>
      targets.namesAll [] (targets.length_eq.trans (Nat.zero_add _).symm) position stack

/-- The places of some targets are gathered with those that have been pushed before. -/
theorem Target.LowersAll.namesAll : ∀ {targets : List Target} {code : List Instruction}
    {places : List Place}, Target.LowersAll scopes targets code places →
    ∀ (pushed : List Place) {count : Nat}, count = pushed.length + places.length →
    ∀ (position : Nat) (stack : List Operand),
    runCode (Instruction.step (H := H) constants program frame) position
        (code ++ [.places count]) (pushed.map .place ++ stack) =
      pure (.place (.list (pushed.reverse ++ places)) :: stack)
  | _, _, _, .nil => by
      intro pushed count counts position stack
      cases counts
      rw [List.nil_append, runCode_singleton, Instruction.step, List.length_nil, Nat.add_zero,
        Operand.places?_map]
  | _, _, _, .cons target rest => by
      intro pushed count counts position stack
      rw [List.length_cons, Nat.add_comm _ 1, ← Nat.add_assoc] at counts
      rw [List.append_assoc, target.names.append]
      refine (rest.namesAll (_ :: pushed) counts _ stack).trans ?_
      rw [List.reverse_cons, List.append_assoc]
      rfl

end

end Targets

/-! ### Expressions -/

namespace Stepping

/-- A program in which the code of a site runs. -/
structure Stands (W : World) (site : Site) (program : Nat) : Prop where
  closes : ∃ library, W.libraries[program]? = some library ∧
    ∀ number body, site.closes number body → number < library.tasks.length
  vocabulary : ∀ entry ∈ site.vocabulary.entries, stepping.Values W entry.2 entry.2

variable {W : World} {site : Site} {program frame : Nat}

theorem Stands.primitive {word : String} {value : Value} (stands : Stands W site program)
    (isValue : site.vocabulary.value? word = some value) : stepping.Values W value value := by
  obtain ⟨entry, found, rfl⟩ := Option.map_eq_some_iff.1 isValue
  exact stands.vocabulary entry (Array.mem_of_find?_eq_some found)

theorem Stands.closure {number : Nat} {body : Block} (stands : Stands W site program)
    (closes : site.closes number body) :
    stepping.Actions W stepping.Functions (Action.make (.block program number frame))
      (Action.make (.block program number frame)) := by
  obtain ⟨library, isLibrary, inside⟩ := stands.closes
  exact Actions.make (.block ⟨rfl, rfl, rfl, library, isLibrary, inside number body closes⟩)

/-- Code that does on the stack what a node does. -/
def Agrees (W : World) (constants : Array Value) (program frame : Nat) (code : List Instruction)
    (node : Node) : Prop :=
  ∃ action : Action (Heap Bytecode) Value, Computes constants program frame code action ∧
    stepping.Actions W stepping.Values (node.evaluate program frame) action

/-- Code that does what some nodes do, and then gathers the results with what has been
pushed before. -/
def AgreesEach (W : World) (constants : Array Value) (program frame : Nat)
    (code : List Instruction) (nodes : List Node) : Prop :=
  ∃ action : Action (Heap Bytecode) (List Value),
    (∀ (pushed : List Value) {count : Nat}, count = pushed.length + nodes.length →
      ∀ (position : Nat) (stack : List Operand),
      runCode (Instruction.step constants program frame) position (code ++ [.list count])
          (pushed.map .value ++ stack) = (do
        let values ← action
        return .value (.list (pushed.reverse ++ values).toArray) :: stack)) ∧
    stepping.Actions W (Lists stepping.Values) (Node.evaluateEach program frame nodes) action

end Stepping

section Agreement

open Stepping

variable {W : World} {site : Site} {scope : Scope} {program frame : Nat}

mutual

theorem Expression.Lowers.agrees (stands : Stands W site program) :
    ∀ {expression : Expression} {code : List Instruction} {node : Node},
    expression.Lowers site scope code node → Agrees W site.constants program frame code node
  | _, _, _, .number found => ⟨_, .push found, Actions.pure (.number _)⟩
  | _, _, _, .character found => ⟨_, .push found, Actions.pure (.character _)⟩
  | _, _, _, .string found => ⟨_, .push found, Actions.pure (Values.ofString _)⟩
  | _, _, _, .name _ => ⟨_, .load _ _, Framing.load frame _ _⟩
  | _, _, _, .primitive isValue found => ⟨_, .push found, Actions.pure (stands.primitive isValue)⟩
  | _, _, _, .implicit _ => ⟨_, .load _ _, Framing.load frame _ _⟩
  | _, _, _, .list items => by
      obtain ⟨action, computes, agrees⟩ := items.agreesEach stands
      refine ⟨do let values ← action; return .list values.toArray, ?_, ?_⟩
      · intro position stack
        rw [bind_assoc]
        simp only [pure_bind]
        exact computes [] (items.length_eq.trans (Nat.zero_add _).symm) position stack
      · exact Actions.bind agrees fun _ _ _ lists => Actions.pure (Values.list lists)
  | _, _, _, .call right function => by
      obtain ⟨rightAction, rightComputes, rights⟩ := right.agrees stands
      obtain ⟨functionAction, functionComputes, functions⟩ := function.agrees stands
      refine ⟨do
        let argument ← rightAction
        let operator ← functionAction
        operator.call argument none, ?_, ?_⟩
      · intro position stack
        simp only [List.append_assoc, rightComputes.append, functionComputes.append,
          runCode_singleton, Instruction.step, bind_assoc]
      · refine Actions.bind rights fun later _ _ arguments => ?_
        refine Actions.bind (functions.mono later) fun after _ _ operators => ?_
        exact operators.call (arguments.mono after) .none
  | _, _, _, .callBoth right function left => by
      obtain ⟨rightAction, rightComputes, rights⟩ := right.agrees stands
      obtain ⟨functionAction, functionComputes, functions⟩ := function.agrees stands
      obtain ⟨leftAction, leftComputes, lefts⟩ := left.agrees stands
      refine ⟨do
        let argument ← rightAction
        let operator ← functionAction
        let other ← leftAction
        operator.call argument (some other), ?_, ?_⟩
      · intro position stack
        simp only [List.append_assoc, rightComputes.append, functionComputes.append,
          leftComputes.append, runCode_singleton, Instruction.step, bind_assoc]
      · refine Actions.bind rights fun first _ _ arguments => ?_
        refine Actions.bind (functions.mono first) fun second _ _ operators => ?_
        refine Actions.bind (lefts.mono (le_trans first second)) fun third _ _ others => ?_
        exact (operators.mono third).call (arguments.mono (le_trans second third)) (.some others)
  | _, _, .modifyOne modifier _, .modifyOne _ operand => by
      obtain ⟨action, computes, agrees⟩ := operand.agrees stands
      refine ⟨do
        let value ← action
        let function ← modifier.apply value
        return .function function, ?_, ?_⟩
      · intro position stack
        simp only [computes.append, runCode_singleton, Instruction.step, OneModifier.ofCode?_code,
          bind_assoc, pure_bind]
      · refine Actions.bind agrees fun _ _ _ operands => ?_
        exact Actions.function (operands.modifyOne _)
  | _, _, .modifyTwo modifier _ _, .modifyTwo _ right left => by
      obtain ⟨rightAction, rightComputes, rights⟩ := right.agrees stands
      obtain ⟨leftAction, leftComputes, lefts⟩ := left.agrees stands
      refine ⟨do
        let second ← rightAction
        let first ← leftAction
        let function ← modifier.apply first second
        return .function function, ?_, ?_⟩
      · intro position stack
        simp only [List.append_assoc, rightComputes.append, leftComputes.append,
          runCode_singleton, Instruction.step, TwoModifier.ofCode?_code, bind_assoc, pure_bind]
      · refine Actions.bind rights fun later _ _ seconds => ?_
        refine Actions.bind (lefts.mono later) fun after _ _ firsts => ?_
        exact Actions.function (firsts.modifyTwo _ (seconds.mono after))
  | _, _, _, .atop right left => by
      obtain ⟨rightAction, rightComputes, rights⟩ := right.agrees stands
      obtain ⟨leftAction, leftComputes, lefts⟩ := left.agrees stands
      refine ⟨do
        let second ← rightAction
        let first ← leftAction
        let outer ← first.toFunction
        let inner ← second.toFunction
        let function ← Action.make (.atop outer inner)
        return .function function, ?_, ?_⟩
      · intro position stack
        simp only [List.append_assoc, rightComputes.append, leftComputes.append,
          runCode_singleton, Instruction.step, bind_assoc, pure_bind]
      · exact Actions.bind rights fun later _ _ seconds => Actions.atop seconds (lefts.mono later)
  | _, _, _, .fork right middle left => by
      obtain ⟨rightAction, rightComputes, rights⟩ := right.agrees stands
      obtain ⟨middleAction, middleComputes, middles⟩ := middle.agrees stands
      obtain ⟨leftAction, leftComputes, lefts⟩ := left.agrees stands
      refine ⟨do
        let third ← rightAction
        let second ← middleAction
        let first ← leftAction
        let before ← first.toFunction
        let between ← second.toFunction
        let after ← third.toFunction
        let function ← Action.make (.fork before between after)
        return .function function, ?_, ?_⟩
      · intro position stack
        simp only [List.append_assoc, rightComputes.append, middleComputes.append,
          leftComputes.append, runCode_singleton, Instruction.step, bind_assoc, pure_bind]
      · exact Actions.bind rights fun later _ _ thirds =>
          Actions.fork thirds (middles.mono later) (lefts.mono later)
  | _, _, _, .block closes => ⟨_, .closure _, Actions.function (stands.closure closes)⟩

theorem Expression.LowersAll.agreesEach (stands : Stands W site program) :
    ∀ {items : List Expression} {code : List Instruction} {nodes : List Node},
    Expression.LowersAll site scope items code nodes →
    AgreesEach W site.constants program frame code nodes
  | _, _, _, .nil => by
      refine ⟨pure [], ?_, Actions.pure .nil⟩
      intro pushed count counts position stack
      cases counts
      rw [List.nil_append, runCode_singleton, Instruction.step, List.length_nil, Nat.add_zero,
        Operand.values?_map, pure_bind]
  | _, _, _, .cons item rest => by
      obtain ⟨action, computes, agrees⟩ := item.agrees stands
      obtain ⟨actions, computesEach, others⟩ := rest.agreesEach stands
      refine ⟨do
        let value ← action
        let values ← actions
        return value :: values, ?_, ?_⟩
      · intro pushed count counts position stack
        rw [List.length_cons, Nat.add_comm _ 1, ← Nat.add_assoc] at counts
        rw [List.append_assoc, computes.append, bind_assoc]
        refine congrArg (action >>= ·) (funext fun value => ?_)
        refine (computesEach (value :: pushed) counts _ stack).trans ?_
        simp only [List.reverse_cons, List.append_assoc, List.singleton_append, bind_assoc,
          pure_bind]
      · refine Actions.bind agrees fun later _ _ first => ?_
        refine Actions.bind (others.mono later) fun after _ _ values => ?_
        exact Actions.pure (.cons (first.mono after) values)

end

/-! ### Statements -/

theorem Clause.Lowers.agrees (stands : Stands W site program) {clause : Clause} {extended : Scope}
    {code : List Instruction} {node : Node}
    (lowers : clause.Lowers site scope extended code node) :
    Agrees W site.constants program frame code node := by
  cases lowers with
  | expression result => exact result.agrees stands
  | @define _ _ _ _ _ _ place value _ target =>
      obtain ⟨action, computes, agrees⟩ : Agrees W site.constants program frame _ _ :=
        value.agrees stands
      refine ⟨do
        let computed ← action
        place.save true frame computed
        return computed, ?_, ?_⟩
      · intro position stack
        simp only [List.append_assoc, computes.append, target.names.append, runCode_singleton,
          Instruction.step, bind_assoc, pure_bind]
      · refine Actions.bind agrees fun _ _ _ values => ?_
        exact Actions.stored true (Framing.abreast frame) place values
  | @assign _ _ _ _ _ place value target =>
      obtain ⟨action, computes, agrees⟩ : Agrees W site.constants program frame _ _ :=
        value.agrees stands
      refine ⟨do
        let computed ← action
        place.save false frame computed
        return computed, ?_, ?_⟩
      · intro position stack
        simp only [List.append_assoc, computes.append, target.names.append, runCode_singleton,
          Instruction.step, bind_assoc, pure_bind]
      · refine Actions.bind agrees fun _ _ _ values => ?_
        exact Actions.stored false (Framing.abreast frame) place values
  | @update _ _ _ _ _ place function target =>
      obtain ⟨action, computes, agrees⟩ : Agrees W site.constants program frame _ _ :=
        function.agrees stands
      refine ⟨do
        let operator ← action
        let current ← place.load frame
        let computed ← operator.call current none
        place.save false frame computed
        return computed, ?_, ?_⟩
      · intro position stack
        simp only [List.append_assoc, computes.append, target.names.append, runCode_singleton,
          Instruction.step, bind_assoc, pure_bind]
      · refine Actions.bind agrees fun _ _ _ operators => ?_
        refine Actions.bind (Actions.current (Framing.abreast frame) place) ?_
        intro _ first _ _ currents
        refine Actions.bind ((operators.mono first).call currents .none) fun _ _ _ values => ?_
        exact Actions.stored false (Framing.abreast frame) place values
  | @updateWith _ _ _ _ _ _ _ _ place argument function target =>
      obtain ⟨argumentAction, argumentComputes, arguments⟩ :
        Agrees W site.constants program frame _ _ := argument.agrees stands
      obtain ⟨functionAction, functionComputes, functions⟩ :
        Agrees W site.constants program frame _ _ := function.agrees stands
      refine ⟨do
        let operand ← argumentAction
        let operator ← functionAction
        let current ← place.load frame
        let computed ← operator.call operand (some current)
        place.save false frame computed
        return computed, ?_, ?_⟩
      · intro position stack
        simp only [List.append_assoc, argumentComputes.append, functionComputes.append,
          target.names.append, runCode_singleton, Instruction.step, bind_assoc, pure_bind]
      · refine Actions.bind arguments fun first _ _ operands => ?_
        refine Actions.bind (functions.mono first) fun second _ _ operators => ?_
        refine Actions.bind (Actions.current (Framing.abreast frame) place) ?_
        intro _ third _ _ currents
        refine Actions.bind ((operators.mono third).call (operands.mono (le_trans second third))
          (.some currents)) fun _ _ _ values => ?_
        exact Actions.stored false (Framing.abreast frame) place values

end Agreement

end PointFree
