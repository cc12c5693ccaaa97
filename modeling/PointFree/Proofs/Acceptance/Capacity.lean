import PointFree.Proofs.Acceptance.Refusal

/-!
Contract: the operands of small programs fit into words.

The size of a tree counts its parts, the names that statements mention and the function
literals included. Whatever a block emits has room in that size: its literals and the
bodies it mentions need no more of it than the block has, so constants and blocks that
have a number never outgrow the size of the whole program.
-/

namespace PointFree

/-! ### Sizes -/

mutual

def Target.size : Target → Nat
  | .name _ => 1
  | .list targets => 1 + Target.sizeOfAll targets
termination_by structural target => target

def Target.sizeOfAll : List Target → Nat
  | [] => 0
  | target :: targets => target.size + Target.sizeOfAll targets
termination_by structural targets => targets

end

mutual

def Expression.size : Expression → Nat
  | .list items => 1 + Expression.sizeOfAll items
  | .call function right => 1 + right.size + function.size
  | .callBoth function left right => 1 + right.size + function.size + left.size
  | .modifyOne _ operand => 1 + operand.size
  | .modifyTwo _ left right => 1 + right.size + left.size
  | .atop left right => 1 + right.size + left.size
  | .fork left middle right => 1 + right.size + middle.size + left.size
  | .block body => 1 + body.size
  | _ => 1
termination_by structural expression => expression

def Expression.sizeOfAll : List Expression → Nat
  | [] => 0
  | item :: items => item.size + Expression.sizeOfAll items
termination_by structural items => items

def Clause.size : Clause → Nat
  | .expression result => 1 + result.size
  | .define target value => 1 + value.size + target.size
  | .assign target value => 1 + value.size + target.size
  | .modify _ function none => 2 + function.size
  | .modify _ function (some argument) => 2 + argument.size + function.size
  | .guard test fallback => 1 + test.size + fallback.size
termination_by structural clause => clause

def Statement.size : Statement → Nat
  | .mk clause _ => clause.size
termination_by structural statement => statement

def Statement.sizeOfAll : List Statement → Nat
  | [] => 0
  | statement :: statements => statement.size + Statement.sizeOfAll statements
termination_by structural statements => statements

/-- Number of parts of a program. -/
def Block.size : Block → Nat
  | .mk statements => 1 + Statement.sizeOfAll statements
termination_by structural block => block

end

mutual

theorem Target.length_names : ∀ target : Target, target.names.length ≤ target.size
  | .name _ => Nat.le_refl 1
  | .list targets => by
      have inner := Target.length_namesOfAll targets
      rw [Target.names, Target.size]
      omega
termination_by structural target => target

theorem Target.length_namesOfAll : ∀ targets : List Target,
    (Target.namesOfAll targets).length ≤ Target.sizeOfAll targets
  | [] => Nat.le_refl 0
  | target :: targets => by
      have first := target.length_names
      have rest := Target.length_namesOfAll targets
      rw [Target.namesOfAll, Target.sizeOfAll, List.length_append]
      omega
termination_by structural targets => targets

end

theorem Statement.size_eq (statement : Statement) : statement.size = statement.clause.size := by
  cases statement
  rfl

theorem Target.length_le_sizeOfAll (targets : List Target) :
    targets.length ≤ Target.sizeOfAll targets := by
  induction targets with
  | nil => exact Nat.le_refl 0
  | cons target targets inductionHypothesis =>
      have some : 1 ≤ target.size := by cases target <;> simp [Target.size]
      rw [List.length_cons, Target.sizeOfAll]
      omega

theorem Expression.length_le_sizeOfAll (items : List Expression) :
    items.length ≤ Expression.sizeOfAll items := by
  induction items with
  | nil => exact Nat.le_refl 0
  | cons item items inductionHypothesis =>
      have some : 1 ≤ item.size := by cases item <;> simp [Expression.size] <;> omega
      rw [List.length_cons, Expression.sizeOfAll]
      omega

/-! ### Room for what is emitted -/

namespace Emitted

/-- What a literal needs in the constant pool, and a body among the blocks. -/
def weight : Emitted → Nat
  | .instruction _ => 0
  | .literal _ => 1
  | .closure body => body.size + 1

/-- The operands are below the limit, and what is left open needs no more than the size. -/
structure Room (limit size : Nat) (emitted : List Emitted) : Prop where
  weight : (emitted.map Emitted.weight).sum ≤ size
  operands : ∀ instruction, .instruction instruction ∈ emitted →
    ∀ operand ∈ instruction.operands, operand < limit

section Room

variable {limit size other : Nat} {first second : List Emitted}

theorem Room.append (left : Room limit size first) (right : Room limit other second) :
    Room limit (size + other) (first ++ second) where
  weight := by
    have leftWeight := left.weight
    have rightWeight := right.weight
    rw [List.map_append, List.sum_append]
    omega
  operands instruction member := by
    cases List.mem_append.1 member with
    | inl member => exact left.operands instruction member
    | inr member => exact right.operands instruction member

theorem Room.mono (room : Room limit size first) (more : size ≤ other) :
    Room limit other first :=
  ⟨Nat.le_trans room.weight more, room.operands⟩

theorem Room.literal (value : Value) : Room limit 1 [.literal value] := by
  refine ⟨Nat.le_refl 1, ?_⟩
  simp

theorem Room.closure (body : Block) : Room limit (1 + body.size) [.closure body] := by
  refine ⟨Nat.le_of_eq (Nat.add_comm body.size 1), ?_⟩
  simp

theorem Room.single {instruction : Instruction}
    (small : ∀ operand ∈ instruction.operands, operand < limit) :
    Room limit 0 [.instruction instruction] := by
  refine ⟨Nat.le_refl 0, fun other member => ?_⟩
  cases List.mem_singleton.1 member
  exact small

theorem Room.concat {instruction : Instruction} (room : Room limit size first)
    (small : ∀ operand ∈ instruction.operands, operand < limit) :
    Room limit size (first ++ [.instruction instruction]) :=
  room.append (.single small)

theorem Room.closing (last : Bool) : Room limit 0 [PointFree.closing last] := by
  refine .single fun operand member => ?_
  cases last with
  | true => cases member
  | false => cases member

end Room

end Emitted

theorem OneModifier.code_lt (modifier : OneModifier) : modifier.code < 8 := by
  cases modifier <;> decide

theorem TwoModifier.code_lt (modifier : TwoModifier) : modifier.code < 8 := by
  cases modifier <;> decide

theorem Implicit.slot_reserved (variant : Implicit) : variant.slot < reservedSlots := by
  cases variant <;> decide

theorem Scope.resolve?_lt {name : String} {scopes : List Scope} {depth slot : Nat}
    (found : resolve? name scopes = some (depth, slot)) :
    depth < scopes.length ∧ ∃ scope ∈ scopes, slot < scope.frameSize := by
  induction scopes generalizing depth with
  | nil => cases found
  | cons scope outer inductionHypothesis =>
      obtain ⟨rfl, index, rfl, here⟩ | ⟨_, further, rfl, around⟩ := resolve?_cons_eq_some found
      · have inside := (List.getElem?_eq_some_iff.1 here).1
        exact ⟨Nat.succ_pos _, scope, .head _, Nat.add_lt_add_right inside reservedSlots⟩
      · obtain ⟨depth, holder, member, slot⟩ := inductionHypothesis around
        exact ⟨Nat.succ_lt_succ depth, holder, .tail _ member, slot⟩

/-- Whatever a statement can refer to is below the limit. -/
structure Surrounding.Room (limit : Nat) (surrounding : Surrounding) : Prop where
  reserve : 8 ≤ limit
  vocabulary : surrounding.vocabulary.size ≤ limit
  depth : surrounding.scopes.length ≤ limit
  slots : ∀ scope ∈ surrounding.scopes, scope.frameSize ≤ limit

section Emission

variable {limit : Nat} {surrounding : Surrounding}

theorem Surrounding.Room.address (room : surrounding.Room limit) {name : String}
    {address : Nat × Nat} (found : Scope.resolve? name surrounding.scopes = some address) :
    address.1 < limit ∧ address.2 < limit := by
  obtain ⟨depth, scope, member, slot⟩ := Scope.resolve?_lt found
  have scopes := room.depth
  have slots := room.slots scope member
  exact ⟨by omega, by omega⟩

theorem Surrounding.Room.constant (room : surrounding.Room limit) {word : String} {place : Nat}
    (found : surrounding.vocabulary.lookup word = some place) : place < limit :=
  Nat.lt_of_lt_of_le (Array.findIdx?_eq_some_iff_getElem.1 found).1 room.vocabulary

mutual

theorem Expression.Unrolls.room (room : surrounding.Room limit) : ∀ {expression : Expression}
    {emitted : List Emitted}, expression.Unrolls surrounding emitted → expression.size ≤ limit →
    Emitted.Room limit expression.size emitted
  | _, _, .number _, _ | _, _, .character _, _ | _, _, .string _, _ => .literal _
  | _, _, .block body, _ => .closure body
  | _, _, .implicit variant, _ => by
      have slot : variant.slot < 3 := variant.slot_reserved
      have reserve := room.reserve
      exact (Emitted.Room.single (by simp [Instruction.operands]; omega)).mono (Nat.zero_le 1)
  | _, _, .name found, _ => by
      obtain ⟨depth, slot⟩ := room.address found
      exact (Emitted.Room.single (by simp [Instruction.operands, depth, slot])).mono (Nat.zero_le 1)
  | _, _, .primitive found, _ => by
      have small := room.constant found
      exact (Emitted.Room.single (by simp [Instruction.operands, small])).mono (Nat.zero_le 1)
  | .list members, _, .list items, small => by
      rw [Expression.size] at small ⊢
      have count := Expression.length_le_sizeOfAll members
      have inner := items.room room (by omega)
      exact (inner.concat (by simp [Instruction.operands]; omega)).mono (by omega)
  | _, _, .call right function, small => by
      rw [Expression.size] at small ⊢
      have second := right.room room (by omega)
      have called := function.room room (by omega)
      exact ((second.append called).concat (by simp [Instruction.operands])).mono (by omega)
  | _, _, .callBoth right function left, small => by
      rw [Expression.size] at small ⊢
      have second := right.room room (by omega)
      have called := function.room room (by omega)
      have first := left.room room (by omega)
      exact (((second.append called).append first).concat (by simp [Instruction.operands])).mono
        (by omega)
  | _, _, @Expression.Unrolls.modifyOne _ _ modifier _ _ _ operand, small => by
      rw [Expression.size] at small ⊢
      have code := modifier.code_lt
      have reserve := room.reserve
      have inner := operand.room room (by omega)
      exact (inner.concat (by simp [Instruction.operands]; omega)).mono (by omega)
  | _, _, @Expression.Unrolls.modifyTwo _ _ modifier _ _ _ _ _ right left, small => by
      rw [Expression.size] at small ⊢
      have code := modifier.code_lt
      have reserve := room.reserve
      have second := right.room room (by omega)
      have first := left.room room (by omega)
      exact ((second.append first).concat (by simp [Instruction.operands]; omega)).mono (by omega)
  | _, _, .atop right left, small => by
      rw [Expression.size] at small ⊢
      have second := right.room room (by omega)
      have first := left.room room (by omega)
      exact ((second.append first).concat (by simp [Instruction.operands])).mono (by omega)
  | _, _, .fork right middle left, small => by
      rw [Expression.size] at small ⊢
      have third := right.room room (by omega)
      have second := middle.room room (by omega)
      have first := left.room room (by omega)
      exact (((third.append second).append first).concat (by simp [Instruction.operands])).mono
        (by omega)

theorem Expression.UnrollsAll.room (room : surrounding.Room limit) : ∀ {items : List Expression}
    {emitted : List Emitted}, Expression.UnrollsAll surrounding items emitted →
    Expression.sizeOfAll items ≤ limit → Emitted.Room limit (Expression.sizeOfAll items) emitted
  | _, _, .nil, _ => ⟨Nat.le_refl 0, by simp⟩
  | _, _, .cons item rest, small => by
      rw [Expression.sizeOfAll] at small ⊢
      exact (item.room room (by omega)).append (rest.room room (by omega))

end

mutual

theorem Target.Unrolls.room (room : surrounding.Room limit) : ∀ {target : Target}
    {emitted : List Emitted}, target.Unrolls surrounding.scopes emitted → target.size ≤ limit →
    Emitted.Room limit 0 emitted
  | _, _, .name found, _ => by
      obtain ⟨depth, slot⟩ := room.address found
      exact .single (by simp [Instruction.operands, depth, slot])
  | .list members, _, .list targets, small => by
      rw [Target.size] at small
      have count := Target.length_le_sizeOfAll members
      exact (targets.room room (by omega)).concat (by simp [Instruction.operands]; omega)

theorem Target.UnrollsAll.room (room : surrounding.Room limit) : ∀ {targets : List Target}
    {emitted : List Emitted}, Target.UnrollsAll surrounding.scopes targets emitted →
    Target.sizeOfAll targets ≤ limit → Emitted.Room limit 0 emitted
  | _, _, .nil, _ => ⟨Nat.le_refl 0, by simp⟩
  | _, _, .cons target rest, small => by
      rw [Target.sizeOfAll] at small
      exact (target.room room (by omega)).append (rest.room room (by omega))

end

end Emission

section Statements

variable {limit : Nat} {vocabulary : Vocabulary} {outer : List Scope} {scope : Scope}

theorem Scope.frameSize_append (scope : Scope) (names : List String) :
    Scope.frameSize (scope ++ names) = scope.frameSize + names.length := by
  rw [Scope.frameSize, Scope.frameSize, List.length_append]
  omega

theorem Surrounding.Room.declare (room : Surrounding.Room limit ⟨vocabulary, scope :: outer⟩)
    {names : List String} (slots : scope.frameSize + names.length ≤ limit) :
    Surrounding.Room limit ⟨vocabulary, (scope ++ names) :: outer⟩ := by
  refine ⟨room.reserve, room.vocabulary, room.depth, List.forall_mem_cons.2
    ⟨?_, (List.forall_mem_cons.1 room.slots).2⟩⟩
  rwa [Scope.frameSize_append]

/-- What a statement unrolls to and declares has room beside its last instruction. -/
theorem Clause.Unrolls.room (room : Surrounding.Room limit ⟨vocabulary, scope :: outer⟩)
    {clause : Clause} {emitted : List Emitted} {extended : Scope}
    (unrolls : clause.Unrolls vocabulary outer scope emitted extended)
    (slots : scope.frameSize + clause.size ≤ limit) :
    ∃ size, Emitted.Room limit size emitted ∧ size + clause.declares.length ≤ clause.size := by
  cases unrolls with
  | expression result =>
      rw [Clause.size] at slots ⊢
      exact ⟨_, result.room room (by omega), by simp [Clause.declares]⟩
  | @define target _ _ _ _ value declared places =>
      cases (Scope.declareAll_eq_ok declared).1
      rw [Clause.size] at slots ⊢
      have names := target.length_names
      have inner := value.room room (by omega)
      have stored := places.room (room.declare (by omega)) (by omega)
      refine ⟨_, (inner.append stored).concat (by simp [Instruction.operands]), ?_⟩
      rw [Clause.declares]
      omega
  | assign value places =>
      rw [Clause.size] at slots ⊢
      have inner := value.room room (by omega)
      have stored := places.room room (by omega)
      refine ⟨_, (inner.append stored).concat (by simp [Instruction.operands]), ?_⟩
      simp only [Clause.declares, List.length_nil]
      omega
  | update function places =>
      rw [Clause.size] at slots ⊢
      have inner := function.room room (by omega)
      have stored := places.room room (by simp [Target.size]; omega)
      refine ⟨_, (inner.append stored).concat (by simp [Instruction.operands]), ?_⟩
      simp only [Clause.declares, List.length_nil]
      omega
  | updateWith argument function places =>
      rw [Clause.size] at slots ⊢
      have given := argument.room room (by omega)
      have inner := function.room room (by omega)
      have stored := places.room room (by simp [Target.size]; omega)
      refine ⟨_, ((given.append inner).append stored).concat (by simp [Instruction.operands]), ?_⟩
      simp only [Clause.declares, List.length_nil]
      omega

/-- What a statement emits and declares has room in its size. -/
theorem Clause.room_of_emit (room : Surrounding.Room limit ⟨vocabulary, scope :: outer⟩)
    {clause : Clause} (slots : scope.frameSize + clause.size ≤ limit) {last : Bool}
    {emitted : List Emitted} {extended : Scope}
    (emits : clause.emit vocabulary outer scope last = .ok (emitted, extended)) :
    ∃ size, Emitted.Room limit size emitted ∧ size + clause.declares.length ≤ clause.size := by
  obtain ⟨body, rfl, unrolls⟩ | ⟨test, fallback, tested, otherwise, rfl, _, _, rfl, testUnrolls,
    fallbackUnrolls⟩ := Clause.unrolls_of_emit emits
  · obtain ⟨size, inner, fits⟩ := unrolls.room room slots
    exact ⟨size, inner.append (.closing last), fits⟩
  · rw [Clause.size] at slots ⊢
    have tests := testUnrolls.room room (by omega)
    have falls := fallbackUnrolls.room room (by omega)
    refine ⟨_, ((tests.concat (by simp [Instruction.operands])).append falls).concat
      (by simp [Instruction.operands]), ?_⟩
    simp only [Clause.declares, List.length_nil]
    omega

theorem Statement.room_of_emitAll {statements : List Statement}
    (room : Surrounding.Room limit ⟨vocabulary, scope :: outer⟩)
    (slots : scope.frameSize + Statement.sizeOfAll statements ≤ limit) {located : List Located}
    {whole : Scope}
    (emits : Statement.emitAll vocabulary outer scope statements = .ok (located, whole)) :
    ∃ size, Emitted.Room limit size (located.map Prod.fst) ∧
      size + (declaredBy statements).length ≤ Statement.sizeOfAll statements := by
  induction statements generalizing scope located with
  | nil =>
      cases emits
      exact ⟨0, ⟨Nat.le_refl 0, by simp⟩, Nat.le_refl 0⟩
  | cons statement rest inductionHypothesis =>
      obtain ⟨emitted, extended, others, clauseEmits, restEmit, rfl⟩ :=
        Statement.emitAll_cons_eq_ok emits
      cases Clause.scope_of_emit clauseEmits
      rw [Statement.sizeOfAll, Statement.size_eq] at slots ⊢
      obtain ⟨size, first, fits⟩ := Clause.room_of_emit room (by omega) clauseEmits
      have wider :
          Surrounding.Room limit ⟨vocabulary, (scope ++ statement.clause.declares) :: outer⟩ :=
        room.declare (by omega)
      have frame := Scope.frameSize_append scope statement.clause.declares
      obtain ⟨sizes, later, fit⟩ := inductionHypothesis wider (by omega) restEmit
      have same : (emitted.map (·, statement.span)).map Prod.fst = emitted :=
        List.map_map.trans (List.map_id _)
      refine ⟨size + sizes, ?_, ?_⟩
      · rw [List.map_append, same]
        exact first.append later
      · rw [declaredBy] at fit
        rw [declaredBy, List.flatMap_cons, List.length_append]
        omega

theorem Block.room_of_emit {block : Block}
    (room : Surrounding.Room limit ⟨vocabulary, scope :: outer⟩)
    (slots : scope.frameSize + block.size ≤ limit) {located : List Located} {whole : Scope}
    (emits : block.emit vocabulary outer scope = .ok (located, whole)) :
    ∃ size, Emitted.Room limit size (located.map Prod.fst) ∧
      size + block.declares.length ≤ block.size := by
  obtain ⟨statements⟩ := block
  cases statements with
  | nil =>
      cases emits
      refine ⟨1, (Emitted.Room.literal .nil).concat (by simp [Instruction.operands]), ?_⟩
      exact Nat.le_refl 1
  | cons statement rest =>
      rw [Block.size] at slots ⊢
      have inner : scope.frameSize + Statement.sizeOfAll (statement :: rest) ≤ limit := by omega
      obtain ⟨size, inside, fits⟩ := Statement.room_of_emitAll room inner emits
      exact ⟨size, inside, Nat.le_trans fits (Nat.le_add_left _ 1)⟩

end Statements

end PointFree
