import PointFree.Proofs.Acceptance
import PointFree.Proofs.Joining.Reading
import PointFree.Proofs.Splitting.Lines

/-!
Contract: lines that are programs one after another are one program.

A body that stands in the whole is the whole or stands in a line, in its place there. So the rules
hold of the whole because they hold of the lines: what the lines before declare comes from outside
for a line, and in the whole from statements that stand earlier.
-/

namespace PointFree

variable {offset : Nat}

/-! ### Parts of a tree in its place -/

mutual

theorem Expression.parts_shift : ∀ expression : Expression,
    (expression.shift offset).parts = expression.parts.map (Expression.shift offset)
  | .list items => congrArg (_ :: ·) (Expression.partsOfAll_shift items)
  | .call function right => by
      rw [Expression.shift, Expression.parts, Expression.parts, List.map_cons, List.map_append,
        right.parts_shift, function.parts_shift, Expression.shift]
  | .callBoth function left right => by
      rw [Expression.shift, Expression.parts, Expression.parts, List.map_cons, List.map_append,
        List.map_append, right.parts_shift, function.parts_shift, left.parts_shift,
        Expression.shift]
  | .modifyOne _ operand => congrArg (_ :: ·) operand.parts_shift
  | .modifyTwo glyph left right => by
      rw [Expression.shift, Expression.parts, Expression.parts, List.map_cons, List.map_append,
        right.parts_shift, left.parts_shift, Expression.shift]
  | .atop left right => by
      rw [Expression.shift, Expression.parts, Expression.parts, List.map_cons, List.map_append,
        right.parts_shift, left.parts_shift, Expression.shift]
  | .fork left middle right => by
      rw [Expression.shift, Expression.parts, Expression.parts, List.map_cons, List.map_append,
        List.map_append, right.parts_shift, middle.parts_shift, left.parts_shift,
        Expression.shift]
  | .number _ | .character _ | .string _ | .name _ | .primitive _ | .implicit _ | .block _ => rfl
termination_by structural expression => expression

theorem Expression.partsOfAll_shift : ∀ items : List Expression,
    Expression.partsOfAll (Expression.shiftAll offset items) =
      (Expression.partsOfAll items).map (Expression.shift offset)
  | [] => rfl
  | item :: items => by
      rw [Expression.shiftAll, Expression.partsOfAll, Expression.partsOfAll, List.map_append,
        item.parts_shift, Expression.partsOfAll_shift items]
termination_by structural items => items

end

namespace Clause

variable {clause : Clause}

theorem operands_shift :
    (clause.shift offset).operands = clause.operands.map (Expression.shift offset) := by
  cases clause with
  | modify name function argument => cases argument <;> rfl
  | _ => rfl

theorem mem_parts_shift {part : Expression} :
    part ∈ (clause.shift offset).parts ↔
      ∃ standing ∈ clause.parts, standing.shift offset = part := by
  rw [parts, operands_shift, List.flatMap_map, funext Expression.parts_shift, ← List.map_flatMap]
  exact List.mem_map

theorem target?_shift : (clause.shift offset).target? = clause.target? := by
  cases clause with
  | modify name function argument => cases argument <;> rfl
  | _ => rfl

theorem updates_shift : (clause.shift offset).updates = clause.updates := by
  cases clause with
  | modify name function argument => cases argument <;> rfl
  | _ => rfl

theorem name_mem_parts_shift {name : String}
    (member : .name name ∈ (clause.shift offset).parts) : .name name ∈ clause.parts := by
  obtain ⟨standing, isPart, same⟩ := mem_parts_shift.1 member
  cases standing with
  | name => cases same; exact isPart
  | _ => cases same

theorem primitive_mem_parts_shift {word : String}
    (member : .primitive word ∈ (clause.shift offset).parts) : .primitive word ∈ clause.parts := by
  obtain ⟨standing, isPart, same⟩ := mem_parts_shift.1 member
  cases standing with
  | primitive => cases same; exact isPart
  | _ => cases same

theorem modifyOne_mem_parts_shift {glyph : Char} {operand : Expression}
    (member : .modifyOne glyph operand ∈ (clause.shift offset).parts) :
    ∃ operand, .modifyOne glyph operand ∈ clause.parts := by
  obtain ⟨standing, isPart, same⟩ := mem_parts_shift.1 member
  cases standing with
  | modifyOne => cases same; exact ⟨_, isPart⟩
  | _ => cases same

theorem modifyTwo_mem_parts_shift {glyph : Char} {left right : Expression}
    (member : .modifyTwo glyph left right ∈ (clause.shift offset).parts) :
    ∃ left right, .modifyTwo glyph left right ∈ clause.parts := by
  obtain ⟨standing, isPart, same⟩ := mem_parts_shift.1 member
  cases standing with
  | modifyTwo => cases same; exact ⟨_, _, isPart⟩
  | _ => cases same

theorem block_mem_parts_shift {inner : Block}
    (member : .block inner ∈ (clause.shift offset).parts) :
    ∃ body, .block body ∈ clause.parts ∧ body.shift offset = inner := by
  obtain ⟨standing, isPart, same⟩ := mem_parts_shift.1 member
  cases standing with
  | block body => cases same; exact ⟨body, isPart, rfl⟩
  | _ => cases same

theorem Mentions.of_shift {name : String} (mentions : (clause.shift offset).Mentions name) :
    clause.Mentions name :=
  mentions.imp name_mem_parts_shift fun member => updates_shift ▸ member

end Clause

theorem Statement.clause_shift (statement : Statement) :
    (statement.shift offset).clause = statement.clause.shift offset := by
  cases statement
  rfl

theorem Statement.declaredBy_shift (statements : List Statement) :
    declaredBy (statements.map (Statement.shift offset)) = declaredBy statements := by
  rw [declaredBy, List.flatMap_map]
  exact congrArg (List.flatMap · statements) (funext (Statement.declares_shift offset))

/-! ### Bodies of lines in the whole -/

section Standing

variable {lines : Nat → Block} {offsets : Nat → Nat} {count : Nat}

theorem declaredBefore_mono {line : Nat} (before : line ≤ count) :
    declaredBefore lines line ⊆ declaredBefore lines count := by
  intro name member
  obtain ⟨earlier, below, declared⟩ := List.mem_flatMap.1 member
  exact List.mem_flatMap.2
    ⟨earlier, List.mem_range.2 ((List.mem_range.1 below).trans_le before), declared⟩

theorem mem_joinedBefore {statement : Statement} :
    statement ∈ joinedBefore lines offsets count ↔
      ∃ line < count, ∃ standing ∈ (lines line).statements,
        standing.shift (offsets line) = statement := by
  rw [joinedBefore, List.mem_flatMap]
  simp only [List.mem_range, List.mem_map]

theorem declares_joinedBefore :
    ((joinedBefore lines offsets count).flatMap fun statement => statement.clause.declares) =
      declaredBefore lines count := by
  rw [joinedBefore, List.flatMap_assoc]
  refine congrArg (List.flatMap · (List.range count)) (funext fun line => ?_)
  rw [← Block.statements_shift]
  exact Block.declares_shift (offsets line) (lines line)

/-- The whole declares what its lines declare. -/
theorem Block.declares_joined : (Block.mk (joinedBefore lines offsets count)).declares =
    declaredBefore lines count :=
  declares_joinedBefore

theorem isPlain_joinedBefore (straight : ∀ line, (lines line).IsStraight) :
    ∀ statement ∈ joinedBefore lines offsets count, statement.clause.IsPlain := by
  intro statement member
  obtain ⟨line, _, isStatement⟩ := List.mem_flatMap.1 member
  obtain ⟨⟨clause, span⟩, isHere, rfl⟩ := List.mem_map.1 isStatement
  exact (Clause.isPlain_shift (offsets line)).2 (straight line _ isHere)

/-- A statement of the whole has before it the lines before its own, and what is before it in its
own. -/
theorem exists_of_joinedBefore_eq {earlier later : List Statement} {statement : Statement}
    (split : joinedBefore lines offsets count = earlier ++ statement :: later) :
    ∃ line < count, ∃ before standing after,
      (lines line).statements = before ++ standing :: after ∧
      standing.shift (offsets line) = statement ∧
      Statement.declaredBy earlier =
        declaredBefore lines line ++ Statement.declaredBy before := by
  induction count generalizing later with
  | zero => simp [joinedBefore] at split
  | succ count inductionHypothesis =>
      rw [joinedBefore_succ] at split
      have here : ∀ more, earlier = joinedBefore lines offsets count ++ more →
          (lines count).statements.map (Statement.shift (offsets count)) =
            more ++ statement :: later →
          ∃ line < count + 1, ∃ before standing after,
            (lines line).statements = before ++ standing :: after ∧
            standing.shift (offsets line) = statement ∧
            Statement.declaredBy earlier =
              declaredBefore lines line ++ Statement.declaredBy before := by
        rintro more rfl own
        obtain ⟨before, rest, isSplit, rfl, isRest⟩ := List.map_eq_append_iff.1 own
        obtain ⟨standing, after, rfl, isStatement, _⟩ := List.map_eq_cons_iff.1 isRest
        refine ⟨count, Nat.lt_succ_self _, before, standing, after, isSplit, isStatement, ?_⟩
        rw [Statement.declaredBy, List.flatMap_append]
        exact congrArg₂ _ declares_joinedBefore (Statement.declaredBy_shift before)
      obtain ⟨more, isEarlier, own⟩ | ⟨rest, isWhole, isRest⟩ := List.append_eq_append_iff.1 split
      · exact here more isEarlier own
      · cases rest with
        | nil =>
            rw [List.append_nil] at isWhole
            exact here [] (by rw [isWhole, List.append_nil]) isRest.symm
        | cons next rest =>
            obtain ⟨rfl, _⟩ := List.cons.inj isRest
            obtain ⟨line, below, found⟩ := inductionHypothesis isWhole
            exact ⟨line, Nat.lt_succ_of_lt below, found⟩

namespace Block

variable {around : List Block} {body : Block}

/-- A body that stands in the whole is the whole or stands in a line. -/
theorem Nests.of_joined (nests : (Block.mk (joinedBefore lines offsets count)).Nests around body) :
    around = [] ∧ body = .mk (joinedBefore lines offsets count) ∨
    ∃ line < count, ∃ outer inner, (lines line).Nests (outer ++ [lines line]) inner ∧
      around = outer.map (Block.shift (offsets line)) ++
        [.mk (joinedBefore lines offsets count)] ∧
      body = inner.shift (offsets line) := by
  induction nests with
  | whole => exact .inl ⟨rfl, rfl⟩
  | @literal around body literal statement _ member part inductionHypothesis =>
      refine .inr ?_
      obtain ⟨rfl, rfl⟩ | ⟨line, below, outer, inner, stands, rfl, rfl⟩ := inductionHypothesis
      · obtain ⟨line, below, standing, isStatement, rfl⟩ := mem_joinedBefore.1 member
        rw [Statement.clause_shift] at part
        obtain ⟨inner, isPart, rfl⟩ := Clause.block_mem_parts_shift part
        exact ⟨line, below, [], inner, .literal .whole isStatement isPart, rfl, rfl⟩
      · rw [Block.statements_shift] at member
        obtain ⟨standing, isStatement, rfl⟩ := List.mem_map.1 member
        rw [Statement.clause_shift] at part
        obtain ⟨within, isPart, rfl⟩ := Clause.block_mem_parts_shift part
        exact ⟨line, below, inner :: outer, within, .literal stands isStatement isPart, rfl, rfl⟩

/-- Every statement that stands in the whole stands in a line. -/
theorem Nests.exists_standing
    (nests : (Block.mk (joinedBefore lines offsets count)).Nests around body)
    {statement : Statement} (member : statement ∈ body.statements) :
    ∃ line < count, ∃ around body, (lines line).Nests around body ∧
      ∃ standing ∈ body.statements, statement.clause = standing.clause.shift (offsets line) := by
  obtain ⟨_, rfl⟩ | ⟨line, below, outer, inner, stands, _, rfl⟩ := nests.of_joined
  · obtain ⟨line, below, standing, isStatement, rfl⟩ := mem_joinedBefore.1 member
    exact ⟨line, below, [], lines line, .whole, standing, isStatement, standing.clause_shift⟩
  · rw [Block.statements_shift] at member
    obtain ⟨standing, isStatement, rfl⟩ := List.mem_map.1 member
    exact ⟨line, below, _, inner, stands, standing, isStatement, standing.clause_shift⟩

end Block

/-! ### Rules of the whole -/

namespace Block

variable {vocabulary : Vocabulary}

theorem IsBound.joined
    (bound : ∀ line < count, (lines line).IsBound (declaredBefore lines line)) :
    (Block.mk (joinedBefore lines offsets count)).IsBound [] := by
  intro around body nests earlier statement later split name mentions
  obtain ⟨rfl, rfl⟩ | ⟨line, below, outer, inner, stands, rfl, rfl⟩ := nests.of_joined
  · obtain ⟨line, below, before, standing, after, isSplit, rfl, declared⟩ :=
      exists_of_joinedBefore_eq split
    rw [Statement.clause_shift] at mentions
    rw [declared, List.mem_append]
    obtain own | ⟨_, none, _⟩ | outside :=
      bound line below [] _ .whole before standing after isSplit name mentions.of_shift
    · exact .inl (.inr own)
    · cases none
    · exact .inl (.inl outside)
  · rw [Block.statements_shift] at split
    obtain ⟨before, rest, isSplit, rfl, isRest⟩ := List.map_eq_append_iff.1 split
    obtain ⟨standing, after, rfl, rfl, _⟩ := List.map_eq_cons_iff.1 isRest
    rw [Statement.clause_shift] at mentions
    rw [Statement.declaredBy_shift]
    have whole : declaredBefore lines line ++ (lines line).declares ⊆
        (Block.mk (joinedBefore lines offsets count)).declares := by
      rw [declares_joined, ← declaredBefore_succ]
      exact declaredBefore_mono below
    refine (bound line below _ _ stands before standing after isSplit name mentions.of_shift).imp_right
      fun outside => .inl ?_
    obtain ⟨block, member, declared⟩ | outside := outside
    · rcases List.mem_append.1 member with member | isLine
      · exact ⟨block.shift (offsets line), List.mem_append_left _ (List.mem_map_of_mem member),
          by rwa [Block.declares_shift]⟩
      · obtain rfl := List.mem_singleton.1 isLine
        exact ⟨_, List.mem_append_right _ (.head _), whole (List.mem_append_right _ declared)⟩
    · exact ⟨_, List.mem_append_right _ (.head _), whole (List.mem_append_left _ outside)⟩

theorem IsSingular.joined
    (singular : ∀ line < count, (lines line).IsSingular (declaredBefore lines line)) :
    (Block.mk (joinedBefore lines offsets count)).IsSingular [] := by
  have distinct : (declaredBefore lines count).Nodup := by
    cases count with
    | zero => exact .nil
    | succ last =>
        rw [declaredBefore_succ]
        exact (singular last (Nat.lt_succ_self _)).1
  have whole : (Block.mk (joinedBefore lines offsets count)).declares.Nodup := by
    rwa [declares_joined]
  refine ⟨whole, fun around body nests => ?_⟩
  obtain ⟨_, rfl⟩ | ⟨line, below, outer, inner, stands, _, rfl⟩ := nests.of_joined
  · exact whole
  · rw [Block.declares_shift]
    exact (singular line below).2 _ _ stands

theorem IsTargeted.joined (targeted : ∀ line < count, (lines line).IsTargeted) :
    (Block.mk (joinedBefore lines offsets count)).IsTargeted := by
  intro around body nests statement member target isTarget
  obtain ⟨line, below, _, _, stands, standing, isStatement, same⟩ := nests.exists_standing member
  rw [same, Clause.target?_shift] at isTarget
  exact targeted line below _ _ stands standing isStatement target isTarget

theorem IsContinued.joined (straight : ∀ line, (lines line).IsStraight)
    (continued : ∀ line < count, (lines line).IsContinued) :
    (Block.mk (joinedBefore lines offsets count)).IsContinued := by
  intro around body nests statement isLast
  obtain ⟨_, rfl⟩ | ⟨line, below, outer, inner, stands, _, rfl⟩ := nests.of_joined
  · have plain := isPlain_joinedBefore straight statement (List.mem_of_getLast? isLast)
    generalize statement.clause = clause at plain
    cases clause with
    | guard => cases plain
    | expression | define | assign | modify => rfl
  · rw [Block.statements_shift, List.getLast?_map] at isLast
    obtain ⟨standing, isStatement, rfl⟩ := Option.map_eq_some_iff.1 isLast
    have goes := continued line below _ _ stands standing isStatement
    rw [Statement.clause_shift]
    generalize standing.clause = clause at goes
    cases clause with
    | guard => cases goes
    | modify name function argument => cases argument <;> rfl
    | expression | define | assign => rfl

theorem IsWorded.joined (worded : ∀ line < count, (lines line).IsWorded vocabulary) :
    (Block.mk (joinedBefore lines offsets count)).IsWorded vocabulary := by
  constructor
  case primitive =>
    intro around body nests statement member word part
    obtain ⟨line, below, _, _, stands, standing, isStatement, same⟩ := nests.exists_standing member
    rw [same] at part
    exact (worded line below).primitive _ _ stands standing isStatement word
      (Clause.primitive_mem_parts_shift part)
  case one =>
    intro around body nests statement member glyph operand part
    obtain ⟨line, below, _, _, stands, standing, isStatement, same⟩ := nests.exists_standing member
    rw [same] at part
    obtain ⟨operand, isPart⟩ := Clause.modifyOne_mem_parts_shift part
    exact (worded line below).one _ _ stands standing isStatement glyph operand isPart
  case two =>
    intro around body nests statement member glyph left right part
    obtain ⟨line, below, _, _, stands, standing, isStatement, same⟩ := nests.exists_standing member
    rw [same] at part
    obtain ⟨left, right, isPart⟩ := Clause.modifyTwo_mem_parts_shift part
    exact (worded line below).two _ _ stands standing isStatement glyph left right isPart

/-- Lines that are programs after what the lines before declare are one program. -/
theorem IsWellFormed.joined (offsets : Nat → Nat) (straight : ∀ line, (lines line).IsStraight)
    (wellFormed : ∀ line < count,
      (lines line).IsWellFormed vocabulary (declaredBefore lines line)) :
    (Block.mk (joinedBefore lines offsets count)).IsWellFormed vocabulary [] :=
  ⟨.joined fun line below => (wellFormed line below).1,
    .joined fun line below => (wellFormed line below).2.singular,
    .joined fun line below => (wellFormed line below).2.targeted,
    .joined straight fun line below => (wellFormed line below).2.continued,
    .joined fun line below => (wellFormed line below).2.worded⟩

end Block

end Standing

/-! ### Compiling programs -/

namespace Block

variable {block : Block} {vocabulary : Vocabulary} {externals : List String} {program : Program}

/-- What is compiled keeps every rule. -/
theorem isWellFormed_of_compile (compiled : block.compile vocabulary externals = .ok program) :
    block.IsWellFormed vocabulary externals := by
  obtain overflows | reports := block.compile_reports vocabulary externals
  · rw [compiled] at overflows
    obtain ⟨_, _, same, _⟩ := overflows
    cases same
  · have faults := reports.imp fun fault => or_congr_right refuses_iff
    rw [compiled] at faults
    exact isWellFormed_of_clean faults

/-- A program that keeps every rule is compiled, or is too large. -/
theorem IsWellFormed.compile_or_overflows (wellFormed : block.IsWellFormed vocabulary externals) :
    (∃ program, block.compile vocabulary externals = .ok program) ∨
    (block.compile vocabulary externals).Overflows (block.operandBound vocabulary externals) := by
  obtain overflows | reports := block.compile_reports vocabulary externals
  · exact .inr overflows
  · have faults := reports.imp fun fault => or_congr_right refuses_iff
    cases compiled : block.compile vocabulary externals with
    | ok program => exact .inl ⟨program, rfl⟩
    | error failure =>
        rw [compiled] at faults
        exact absurd wellFormed.1 (wellFormed.2.unbound faults).2

theorem IsWellFormed.compile (wellFormed : block.IsWellFormed vocabulary externals) :
    (∃ program, block.compile vocabulary externals = .ok program) ∨
    ∃ failure operand, block.compile vocabulary externals = .error failure ∧
      failure.fault = .operandTooLarge operand ∧ operandLimit ≤ operand := by
  refine wellFormed.compile_or_overflows.imp_right fun overflows => ?_
  obtain ⟨failure, operand, failed, isFault, large, _⟩ := overflows
  exact ⟨failure, operand, failed, isFault, large⟩

/-- A small program that keeps every rule is compiled. -/
theorem IsWellFormed.exists_compile (wellFormed : block.IsWellFormed vocabulary externals)
    (small : block.operandBound vocabulary externals ≤ operandLimit) :
    ∃ program, block.compile vocabulary externals = .ok program := by
  refine wellFormed.compile_or_overflows.resolve_right fun overflows => ?_
  obtain ⟨_, operand, _, _, large, within⟩ := overflows
  omega

end Block

end PointFree
