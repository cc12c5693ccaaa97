import PointFree.Proofs.Acceptance.Wellformed
import PointFree.Proofs.Compilation.Layout
import PointFree.Proofs.Meaning.Preservation

/-!
Contract: the addresses in the code of a block are those of the variables that the block
refers to.

The references of a body are read off the tree, in the order in which they are evaluated:
the variables of expressions and the names that statements store in, each with the names
that the body has declared by then. The code has one address for each, in the same order.
-/

namespace PointFree

/-! ### References -/

/-- A variable as it is written. -/
inductive Mention where
  | name (word : String)
  | implicit (implicit : Implicit)
deriving DecidableEq

/-- A variable where it is written, with the names that its body has declared by then. -/
structure Reference where
  declared : List String
  mention : Mention

/-- The expression, where it is a variable. -/
def Expression.mention? : Expression → Option Mention
  | .name word => some (.name word)
  | .implicit variant => some (.implicit variant)
  | _ => none

/-- The references in some expressions, which are evaluated in this order. -/
def Expression.references (declared : List String) (parts : List Expression) : List Reference :=
  (parts.filterMap Expression.mention?).map (⟨declared, ·⟩)

/-- References to names that are stored in. -/
def Reference.stores (declared names : List String) : List Reference :=
  names.map fun word => ⟨declared, .name word⟩

/-- A statement evaluates its operands before it stores anything. -/
def Clause.references (declared : List String) (clause : Clause) : List Reference :=
  Expression.references declared clause.parts ++
    Reference.stores (declared ++ clause.declares) (clause.declares ++ clause.updates)

/-- Each statement declares names for those after it. -/
def Statement.references : (declared : List String) → List Statement → List Reference
  | _, [] => []
  | declared, statement :: rest =>
      statement.clause.references declared ++
        Statement.references (declared ++ statement.clause.declares) rest

/-- The address of a variable, given the scopes around its body. -/
def Reference.address? (outer : List Scope) : Reference → Option (Nat × Nat)
  | ⟨declared, .name word⟩ => Scope.resolve? word (declared :: outer)
  | ⟨_, .implicit variant⟩ => some (0, variant.slot)

/-! ### Addresses in code -/

/-- The address that an instruction loads from, or stores in later. -/
def Instruction.address? : Instruction → Option (Nat × Nat)
  | .load depth slot | .place depth slot => some (depth, slot)
  | _ => none

def addressesIn (code : List Instruction) : List (Nat × Nat) :=
  code.filterMap Instruction.address?

def Reading.instructions : Reading → List Instruction
  | .broken _ _ => []
  | .finish _ => [.finish]
  | .next _ instruction rest => instruction :: rest.instructions

/-- The addresses in the code of a block, in their order. -/
def Program.addresses (program : Program) (number : Nat) : List (Nat × Nat) :=
  match program.blocks[number]? with
  | some entry => addressesIn (program.reading entry.start).instructions
  | none => []

theorem Reading.instructions_ofList {code : List Instruction} (returns : IsReturning code)
    (position : Nat) : (Reading.ofList position code).instructions = code := by
  obtain ⟨body, rfl, others⟩ := returns
  induction body generalizing position with
  | nil => rfl
  | cons instruction body inductionHypothesis =>
      rw [List.cons_append, Reading.ofList_cons (List.ne_of_not_mem_cons others).symm, instructions,
        inductionHypothesis _ (List.not_mem_of_not_mem_cons others)]

/-! ### Lowered code -/

/-- The code has the addresses of the references, one for each. -/
def Reference.Reach (outer : List Scope) (references : List Reference) (code : List Instruction) :
    Prop :=
  (addressesIn code).map some = references.map (Reference.address? outer)

namespace Reference.Reach

variable {outer : List Scope} {first second : List Reference} {code code' : List Instruction}

theorem append (firsts : Reach outer first code) (seconds : Reach outer second code') :
    Reach outer (first ++ second) (code ++ code') := by
  rw [Reach, addressesIn, List.filterMap_append, List.map_append, List.map_append]
  exact congrArg₂ (· ++ ·) firsts seconds

/-- Other instructions have no addresses. -/
theorem concat (reach : Reach outer first code) {instruction : Instruction}
    (other : instruction.address? = none) : Reach outer first (code ++ [instruction]) := by
  rw [Reach, addressesIn, List.filterMap_append, List.filterMap_cons_none other,
    List.filterMap_nil, List.append_nil]
  exact reach

end Reference.Reach

theorem Expression.references_append (declared : List String) (first second : List Expression) :
    references declared (first ++ second) =
      references declared first ++ references declared second := by
  rw [references, List.filterMap_append, List.map_append]
  rfl

theorem Reference.stores_append (declared first second : List String) :
    stores declared (first ++ second) = stores declared first ++ stores declared second :=
  List.map_append

section Lowered

open Reference

variable {site : Site} {scope : Scope}

mutual

theorem Expression.Lowers.reach : ∀ {expression : Expression} {code : List Instruction}
    {node : Node}, expression.Lowers site scope code node →
    Reach site.outer (Expression.references scope expression.parts) code
  | _, _, _, .number _ | _, _, _, .character _ | _, _, _, .string _ | _, _, _, .primitive _ _
  | _, _, _, .implicit _ | _, _, _, .block _ => rfl
  | _, _, _, .name resolves => congrArg (fun address => [address]) resolves.symm
  | _, _, _, .list items => items.reach.concat rfl
  | .call function right, _, _, .call rightLowers functionLowers => by
      have operands := rightLowers.reach.append functionLowers.reach
      rw [← Expression.references_append] at operands
      exact operands.concat rfl
  | .callBoth function left right, _, _, .callBoth rightLowers functionLowers leftLowers => by
      have operands := (rightLowers.reach.append functionLowers.reach).append leftLowers.reach
      rw [← Expression.references_append, ← Expression.references_append] at operands
      exact operands.concat rfl
  | _, _, _, .modifyOne _ operand => operand.reach.concat rfl
  | .modifyTwo glyph left right, _, _, .modifyTwo _ rightLowers leftLowers => by
      have operands := rightLowers.reach.append leftLowers.reach
      rw [← Expression.references_append] at operands
      exact operands.concat rfl
  | .atop left right, _, _, .atop rightLowers leftLowers => by
      have operands := rightLowers.reach.append leftLowers.reach
      rw [← Expression.references_append] at operands
      exact operands.concat rfl
  | .fork left middle right, _, _, .fork rightLowers middleLowers leftLowers => by
      have operands := (rightLowers.reach.append middleLowers.reach).append leftLowers.reach
      rw [← Expression.references_append, ← Expression.references_append] at operands
      exact operands.concat rfl

theorem Expression.LowersAll.reach : ∀ {items : List Expression} {code : List Instruction}
    {nodes : List Node}, Expression.LowersAll site scope items code nodes →
    Reach site.outer (Expression.references scope (Expression.partsOfAll items)) code
  | _, _, _, .nil => rfl
  | item :: items, _, _, .cons first rest => by
      have both := first.reach.append rest.reach
      rwa [← Expression.references_append] at both

end

mutual

theorem Target.Lowers.reach {outer : List Scope} : ∀ {target : Target} {code : List Instruction}
    {place : Place}, target.Lowers (scope :: outer) code place →
    Reach outer (stores scope target.names) code
  | _, _, _, .name resolves => congrArg (fun address => [address]) resolves.symm
  | _, _, _, .list targets => targets.reach.concat rfl

theorem Target.LowersAll.reach {outer : List Scope} : ∀ {targets : List Target}
    {code : List Instruction} {places : List Place},
    Target.LowersAll (scope :: outer) targets code places →
    Reach outer (stores scope (Target.namesOfAll targets)) code
  | _, _, _, .nil => rfl
  | target :: targets, _, _, .cons first rest => by
      have both := first.reach.append rest.reach
      rwa [← Reference.stores_append] at both

end

theorem Clause.Lowers.reach {clause : Clause} {extended : Scope} {code : List Instruction}
    {node : Node} (lowers : clause.Lowers site scope extended code node) :
    Reach site.outer (clause.references scope) code := by
  rw [Clause.references, Clause.parts]
  cases lowers with
  | expression result =>
      simp only [Clause.operands, List.flatMap_singleton, Clause.declares, Clause.updates,
        List.append_nil, stores, List.map_nil]
      exact result.reach
  | define value declared target =>
      rw [(Scope.declareAll_eq_ok declared).1] at target
      simp only [Clause.operands, List.flatMap_singleton, Clause.declares, Clause.updates,
        List.append_nil]
      exact (value.reach.append target.reach).concat rfl
  | assign value target =>
      simp only [Clause.operands, List.flatMap_singleton, Clause.declares, Clause.updates,
        List.append_nil, List.nil_append]
      exact (value.reach.append target.reach).concat rfl
  | update function target =>
      simp only [Clause.operands, List.flatMap_singleton, Clause.declares, Clause.updates,
        List.append_nil, List.nil_append]
      exact (function.reach.append target.reach).concat rfl
  | updateWith argument function target =>
      have operands := argument.reach.append function.reach
      rw [← Expression.references_append] at operands
      simp only [Clause.operands, List.flatMap_cons, List.flatMap_nil, Clause.declares,
        Clause.updates, List.append_nil, List.nil_append]
      exact (operands.append target.reach).concat rfl

theorem Statement.Lowers.reach {statements : List Statement} {whole : Scope}
    {placed : List Marked} {steps : List Step}
    (lowers : Statement.Lowers site scope statements whole placed steps) :
    Reach site.outer (Statement.references scope statements) (placed.map Prod.fst) := by
  induction lowers with
  | finish clause =>
      rw [map_placedAt, Statement.references, Statement.references, List.append_nil]
      exact clause.reach.concat rfl
  | evaluate clause _ inductionHypothesis =>
      rw [clause.scope_eq] at inductionHypothesis
      rw [List.map_append, map_placedAt]
      exact (clause.reach.concat rfl).append inductionHypothesis
  | @guard scope _ test fallback _ _ testCode fallbackCode _ _ _ _ testLowers fallbackLowers _
      inductionHypothesis =>
      have tested : Reach site.outer (Expression.references scope test.parts)
          (testCode ++ [.test]) := testLowers.reach.concat rfl
      have operands : Reach site.outer ((Clause.guard test fallback).references scope)
          (testCode ++ [.test] ++ fallbackCode ++ [.fallback]) := by
        simp only [Clause.references, Clause.parts, Clause.operands, List.flatMap_cons,
          List.flatMap_nil, Clause.declares, Clause.updates, List.append_nil, stores, List.map_nil]
        rw [Expression.references_append]
        exact (tested.append fallbackLowers.reach).concat rfl
      rw [List.map_append, map_placedAt, Statement.references]
      refine operands.append ?_
      simpa only [Statement.clause, Clause.declares, List.append_nil] using inductionHypothesis

theorem Block.Lowers.reach {block : Block} {whole : Scope} {placed : List Marked}
    {steps : List Step} (lowers : block.Lowers site scope whole placed steps) :
    Reach site.outer (Statement.references scope block.statements) (placed.map Prod.fst) := by
  cases lowers with
  | empty => rfl
  | statements lowers => exact lowers.reach

end Lowered

end PointFree
