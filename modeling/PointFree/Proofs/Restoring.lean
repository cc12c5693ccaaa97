import PointFree.Proofs.Conversation.Splitting
import PointFree.Proofs.Restoring.Data
import PointFree.Proofs.Restoring.Evaluation

/-!
Contract: what is displayed of data is a program for the data.

The written form of a value that shows legible data is read as one statement, which names nothing.
So it keeps every rule for programs, and is compiled unless there is more of it than operands of
instructions can say. Its value is the one that the tree of the data has, up to what depends on the
run. It shows what is read of the written form, so it equals the value that was displayed: a number
and what is read of its digits are equal as numbers, and a value that shows data equals every value
that shows what is read of its written form, whatever the two arrays are made of.

A text with a quote in it is not legible. The quote is written as it is, and ends the text where it
is read. In the literal of a text every quote is written twice. It is read as one token whatever the
text holds: only a quote that stands alone ends it, so signs that part, open or hide something in
code are characters like others. The literal is a program by itself, small enough to be compiled
however long the text is, and its value is the text.
-/

namespace PointFree

open Meaning

/-! ### Values that show the same data -/

section Equality

variable {H : Type} {calling : Call H}

/-- A test that every index passes is passed. -/
theorem Action.Yields.everyFrom {test : Nat → Action H Bool} {remaining index : Nat}
    (passes : ∀ place, index ≤ place → place < index + remaining →
      (test place).Yields calling (.ok true)) :
    (PointFree.everyFrom test remaining index).Yields calling (.ok true) := by
  induction remaining generalizing index with
  | zero => exact Action.yields_pure true
  | succ remaining inductionHypothesis =>
      intro memory
      refine (bind_of_ok (passes index (Nat.le_refl _) (by omega) memory)).trans ?_
      exact inductionHypothesis (fun place above below => passes place (by omega) (by omega)) memory

/-- Elements are compared as what they are read as, in whichever round that is. -/
theorem Element.Reads.sameThrough {left right : Element} {content content' : Value}
    {later : Value × Value → Action H Bool} (reads : left.Reads calling content)
    (reads' : right.Reads calling content')
    (here : (content.sameThrough later content').Yields calling (.ok true))
    (afterwards : (later (content, content')).Yields calling (.ok true)) :
    (left.sameThrough later right).Yields calling (.ok true) := by
  intro memory
  cases left with
  | value found =>
      cases reads memory
      exact (Action.bind_of_ok (Action.Yields.attempt reads' memory)).trans (here memory)
  | failure | combined | selected =>
      refine (Action.bind_of_ok (Action.Yields.attempt reads memory)).trans ?_
      refine (Action.bind_of_ok (Action.Yields.attempt reads' memory)).trans ?_
      exact afterwards memory

/-- A value that shows data equals one that shows what is read of its written form. -/
theorem Value.Shows.sameThrough {brackets : Nat} {value value' : Value} {datum : Datum}
    (shows : value.Shows (Element.Reads calling) datum)
    (shows' : value'.Shows (Element.Reads calling) datum.restored)
    (legible : datum.IsLegible brackets) {limit : Nat} (deep : datum.depth ≤ limit) :
    (value.sameThrough
      (Action.rounds (fun later pair => pair.1.sameThrough later pair.2) limit) value').Yields
        calling (.ok true) := by
  induction shows generalizing value' brackets limit with
  | number amount =>
      rw [Datum.restored] at shows'
      cases shows'
      cases legible with
      | number _ same =>
          rw [← same]
          exact Action.yields_pure _
  | character letter =>
      rw [Datum.restored] at shows'
      cases shows'
      rw [← beq_self_eq_true letter]
      exact Action.yields_pure _
  | @array array items content count reads shows inductionHypothesis =>
      obtain ⟨brackets, legibles⟩ := legible.items
      rw [Datum.restored, Datum.restoredOfAll_eq] at shows'
      generalize isShape : array.shape = shape at shows'
      cases shows' with
      | @array array' _ content' count' reads' shows' =>
          obtain ⟨view, shape, fill, element⟩ := array
          obtain rfl : shape = array'.shape := isShape
          have others (index : Nat) (inside : index < items.length) :
              (content' index).Shows (Element.Reads calling) items[index].restored := by
            have there : index < (items.map Datum.restored).length := by
              rwa [List.length_map]
            have shown := shows' index there
            rwa [List.getElem_map] at shown
          rw [List.length_map] at reads'
          rw [Value.sameThrough, ShapedArray.sameThrough, if_pos rfl]
          refine Action.Yields.everyFrom fun index _ inside => ?_
          have inside : index < items.length := by
            rw [← count]
            rwa [Nat.zero_add] at inside
          have legible := legibles _ (List.getElem_mem inside)
          have shallow := (Datum.depth_lt (List.getElem_mem inside)).trans_le deep
          refine (reads index inside).sameThrough (reads' index inside) ?_ ?_
          · exact inductionHypothesis index inside (others index inside) legible shallow.le
          · rw [Action.rounds_eq_step _ _ _ (Nat.zero_lt_of_lt shallow)]
            exact inductionHypothesis index inside (others index inside) legible
              (Nat.le_sub_one_of_lt shallow)

/-- Equality does not go deeper than the budget of calls. -/
theorem Value.Shows.same {brackets : Nat} {value value' : Value} {datum : Datum}
    (shows : value.Shows (Element.Reads calling) datum)
    (shows' : value'.Shows (Element.Reads calling) datum.restored)
    (legible : datum.IsLegible brackets) (deep : datum.depth < callBudget) :
    (value.same value').Yields calling (.ok true) := by
  rw [Value.same, Action.rounds_eq_step _ _ _ (Nat.zero_lt_of_lt deep)]
  exact shows.sameThrough shows' legible (Nat.le_sub_one_of_lt deep)

end Equality

/-! ### Programs of data -/

theorem Vocabulary.mem_of_value? {vocabulary : Vocabulary} {word : String} {value : Value}
    (known : vocabulary.value? word = some value) : (word, value) ∈ vocabulary.entries := by
  obtain ⟨entry, found, rfl⟩ := Option.map_eq_some_iff.1 known
  have named : entry.1 = word := by simpa using Array.find?_some found
  rw [← named]
  exact Array.mem_of_find?_eq_some found

/-- Literals, lists, and calls of the functions that make arrays. -/
def Expression.IsLiteral : Expression → Prop
  | .number _ | .character _ | .string _ | .list _ | .call _ _ | .callBoth _ _ _ => True
  | .primitive word => word = "<" ∨ word = "⥊"
  | _ => False

theorem Expression.mem_partsOfAll {part : Expression} {items : List Expression} :
    part ∈ partsOfAll items ↔ ∃ item ∈ items, part ∈ item.parts := by
  induction items with
  | nil => simp [partsOfAll]
  | cons item items inductionHypothesis => simp [partsOfAll, inductionHypothesis]

/-- The parts are literals where those of the items are. -/
theorem Expression.parts_list {items : List Expression}
    (literal : ∀ item ∈ items, ∀ part ∈ item.parts, part.IsLiteral) :
    ∀ part ∈ (list items).parts, part.IsLiteral := by
  intro part isPart
  rw [parts] at isPart
  rcases List.mem_cons.1 isPart with rfl | inside
  · trivial
  · obtain ⟨item, member, isPart⟩ := mem_partsOfAll.1 inside
    exact literal item member part isPart

theorem Datum.IsLegible.parts_isLiteral {brackets : Nat} {datum : Datum}
    (legible : datum.IsLegible brackets) : ∀ part ∈ datum.expression.parts, part.IsLiteral := by
  have literal {expression : Expression} (alone : expression.parts = [expression])
      (isLiteral : expression.IsLiteral) : ∀ part ∈ expression.parts, part.IsLiteral := by
    rw [alone]
    exact List.forall_mem_singleton.2 isLiteral
  induction legible with
  | number =>
      rw [expression]
      exact literal rfl trivial
  | character =>
      rw [expression]
      exact literal rfl trivial
  | text some =>
      rw [expression_text some]
      exact literal rfl trivial
  | boxed _ inductionHypothesis =>
      rw [expression_boxed, Expression.parts, List.forall_mem_cons, List.forall_mem_append]
      exact ⟨trivial, inductionHypothesis, literal rfl (.inl rfl)⟩
  | list none _ inductionHypothesis =>
      rw [expression_list none]
      exact Expression.parts_list (List.forall_mem_map.2 inductionHypothesis)
  | table several _ _ _ _ inductionHypothesis =>
      rw [expression_table several, Expression.parts, List.forall_mem_cons, List.forall_mem_append,
        List.forall_mem_append]
      refine ⟨trivial, ⟨?_, literal rfl (.inr rfl)⟩, ?_⟩
      · exact Expression.parts_list (List.forall_mem_map.2 inductionHypothesis)
      · exact Expression.parts_list (List.forall_mem_map.2 fun _ _ => literal rfl trivial)

namespace Block

variable {expression : Expression} {span : Option Span}

/-- Nothing is nested in a program without function literals. -/
theorem Nests.alone {around : List Block} {body : Block}
    (literal : ∀ part ∈ expression.parts, part.IsLiteral)
    (nests : (Block.mk [.mk (.expression expression) span]).Nests around body) :
    around = [] ∧ body = .mk [.mk (.expression expression) span] := by
  induction nests with
  | whole => exact ⟨rfl, rfl⟩
  | literal _ member isPart inductionHypothesis =>
      rw [inductionHypothesis.2] at member
      cases List.mem_singleton.1 member
      rw [Statement.clause, Clause.parts, Clause.operands, List.flatMap_singleton] at isPart
      exact absurd (literal _ isPart) id

/-- A literal is a program. -/
theorem isWellFormed_of_literal (literal : ∀ part ∈ expression.parts, part.IsLiteral) :
    (Block.mk [.mk (.expression expression) span]).IsWellFormed (.standardFrom 0) [] := by
  have only {around : List Block} {body : Block}
      (nests : (Block.mk [.mk (.expression expression) span]).Nests around body)
      {statement : Statement} (member : statement ∈ body.statements) :
      statement.clause = .expression expression := by
    rw [(nests.alone literal).2] at member
    rw [List.mem_singleton.1 member, Statement.clause]
  have parts {around : List Block} {body : Block}
      (nests : (Block.mk [.mk (.expression expression) span]).Nests around body)
      {statement : Statement} (member : statement ∈ body.statements) {part : Expression}
      (isPart : part ∈ statement.clause.parts) : part.IsLiteral := by
    rw [only nests member, Clause.parts, Clause.operands, List.flatMap_singleton] at isPart
    exact literal part isPart
  refine ⟨fun around body nests earlier statement later split name mentions => ?bound,
    ⟨?singular, ?targeted, ?continued, ⟨?primitive, ?one, ?two⟩⟩⟩
  case bound =>
    have member : statement ∈ body.statements :=
      split ▸ List.mem_append_right _ (List.mem_cons_self ..)
    rcases mentions with isPart | updated
    · exact absurd (parts nests member isPart) id
    · rw [only nests member] at updated
      cases updated
  case singular =>
    refine ⟨List.nodup_nil, fun around body nests => ?_⟩
    rw [(nests.alone literal).2]
    exact List.nodup_nil
  case targeted =>
    intro around body nests statement member target isTarget
    rw [only nests member] at isTarget
    cases isTarget
  case continued =>
    intro around body nests statement last
    rw [only nests (List.mem_of_getLast? last)]
    rfl
  case primitive =>
    intro around body nests statement member word isPart
    rcases parts nests member isPart with rfl | rfl
    · exact ⟨_, Vocabulary.mem_of_value? Vocabulary.value?_less⟩
    · exact ⟨_, Vocabulary.mem_of_value? Vocabulary.value?_reshape⟩
  case one =>
    intro around body nests statement member glyph operand isPart
    exact absurd (parts nests member isPart) id
  case two =>
    intro around body nests statement member glyph left right isPart
    exact absurd (parts nests member isPart) id

end Block

/-! ### What is read of what is displayed -/

theorem Element.Holds.anonymous {element element' : Element} {content : Value}
    (holds : element.Holds content) (same : element.anonymous = element'.anonymous) :
    ∃ content', element'.Holds content' ∧ content'.anonymous = content.anonymous := by
  rw [Holds] at holds
  subst holds
  cases element' with
  | value content' =>
      injection same with same
      exact ⟨content', rfl, same.symm⟩
  | failure | combined | selected => cases same

/-- Values that are the same without what depends on the run show the same data. -/
theorem Value.Shows.anonymous {value value' : Value} {datum : Datum}
    (shows : value.Shows Element.Holds datum) (same : value'.anonymous = value.anonymous) :
    value'.Shows Element.Holds datum := by
  induction shows generalizing value' with
  | number amount =>
      cases value' <;> cases same
      exact .number amount
  | character letter =>
      cases value' <;> cases same
      exact .character letter
  | @array array items content count holds _ inductionHypothesis =>
      cases value' with
      | array array' =>
          obtain ⟨view, shape, fill, element⟩ := array
          injection same with same
          obtain ⟨fill', element', rfl, elements⟩ := ShapedArray.anonymous_eq same.symm
          have each (index : Nat) : ∃ content', index < items.length →
              (element' index).Holds content' ∧ content'.anonymous = (content index).anonymous := by
            by_cases inside : index < items.length
            · obtain ⟨content', holds, same⟩ := (holds index inside).anonymous (elements index)
              exact ⟨content', fun _ => ⟨holds, same⟩⟩
            · exact ⟨.nil, fun within => absurd within inside⟩
          choose content' known using each
          have others : ∀ (index : Nat) (inside : index < items.length),
              (content' index).Shows Element.Holds items[index] :=
            fun index inside => inductionHypothesis index inside (known index inside).2
          exact .array count (fun index inside => (known index inside).1) others
      | number | character | function => cases same

theorem Action.Yields.located {H α : Type} {calling : Call H} {action : Action H α} {result : α}
    (yields : action.Yields calling (.ok result)) (span : Option Span) :
    (Action.located span action).Yields calling (.ok result) := by
  intro memory
  rw [Action.located, yields memory]
  rfl

/-- The written form of legible data is a program whose value shows what is read, unless there is
too much of it. -/
theorem Datum.IsLegible.evaluate_letters {brackets : Nat} {datum : Datum}
    (legible : datum.IsLegible brackets) (narrow : brackets < nestingLimit) :
    (∃ value, ((evaluate (String.ofList datum.letters)).perform Store.empty).1 = .ok value ∧
      value.Shows Element.Holds datum.restored) ∨
    ∃ failure operand,
      ((evaluate (String.ofList datum.letters)).perform Store.empty).1 = .error failure ∧
      failure.fault = .operandTooLarge operand ∧ operandLimit ≤ operand := by
  obtain ⟨span, reads⟩ := legible.parse narrow
  obtain ⟨program, compiles⟩ | ⟨failure, operand, refuses, isFault, large⟩ :=
    (Block.isWellFormed_of_literal legible.parts_isLiteral).compile
  · obtain ⟨value', evaluates, shows⟩ : datum.IsComputed
        ⟨0, [], .standardFrom 0, defaultCallLimit⟩ (callAt callBudget) :=
      legible.isComputed rfl (by decide)
    obtain ⟨value, ended, same⟩ :=
      evaluate_of_evaluateAll reads compiles (evaluates.located (some span) (Memory.opened []))
    exact .inl ⟨value, ended, shows.anonymous same⟩
  · exact .inr ⟨failure, operand, evaluate_of_refused reads refuses, isFault, large⟩

/-- What is displayed of legible data is a program, and its value equals the value displayed. -/
theorem Value.Shows.text_evaluates {brackets : Nat} {value : Value} {datum : Datum}
    (shows : value.Shows (Element.Reads (callAt callBudget : Call (Heap (List Routine)))) datum)
    (legible : datum.IsLegible brackets) (narrow : brackets < nestingLimit)
    (shallow : datum.depth < callBudget) :
    ∃ text, (∀ memory, (value.text : Run String).perform memory = (.ok text, memory)) ∧
      ((∃ value', ((evaluate text).perform Store.empty).1 = .ok value' ∧
        ∀ memory, (value.same value' : Run Bool).perform memory = (.ok true, memory)) ∨
      ∃ failure operand, ((evaluate text).perform Store.empty).1 = .error failure ∧
        failure.fault = .operandTooLarge operand ∧ operandLimit ≤ operand) := by
  refine ⟨String.ofList datum.letters, shows.text legible shallow, ?_⟩
  refine (legible.evaluate_letters narrow).imp_left fun evaluated => ?_
  obtain ⟨value', ended, shows'⟩ := evaluated
  exact ⟨value', ended, shows.same shows'.isRead legible shallow⟩

/-! ### Literals of texts -/

namespace Text

/-- The text as it is written in a program. -/
def literal (text : String) : String :=
  String.ofList ('"' :: (doubled text.toList ++ ['"']))

theorem toList_literal (text : String) :
    (literal text).toList = '"' :: (doubled text.toList ++ ['"']) :=
  String.toList_ofList

example : literal "a\"⟩\n" = "\"a\"\"⟩\n\"" := by decide +kernel

end Text

open Text (literal)

/-- The literal is all that its text reads to. -/
theorem rawStatements_literal (text : String) : rawStatements (literal text) =
    .ok [.mk [.string text] ⟨0, byteLength (literal text).toList⟩] := by
  have isToken : IsToken [] (literal text).toList (.atom (.string text)) := by
    have token := IsToken.doubled text.toList (show ([] : List Char).head? ≠ some '"' from nofun)
    rwa [String.ofList_toList, ← Text.toList_literal] at token
  have reads : Reads .start (literal text).toList []
      ((Progress.start.passAll (literal text).toList).within
        (.block [] 0 ⟨[[.string text]], false⟩, [])) := Adds.reads_atom isToken
  have ends : (Progress.start.passAll (literal text).toList).trimmed =
      byteLength (literal text).toList := by
    have solid : Solid (literal text).toList := by
      rw [Text.toList_literal, ← List.cons_append]
      exact solid_concat (by decide)
    have some : (literal text).toList ≠ [] := by
      rw [Text.toList_literal]
      exact List.cons_ne_nil _ _
    rw [Progress.trimmed_passAll_solid _ some solid, Progress.passAll_position]
    exact Nat.zero_add _
  rw [← Progress.resume_start, ← List.append_nil (literal text).toList, reads.resume_eq,
    Progress.resume_nil, List.append_nil, ← ends]
  generalize Progress.start.passAll (literal text).toList = passed
  rfl

theorem Block.parse_literal (text : String) : parse (literal text) =
    .ok (.mk [.mk (.expression (.string text)) (some ⟨0, byteLength (literal text).toList⟩)]) := by
  rw [parse, rawStatements_literal]
  rfl

/-- Literals are compiled. Their text is one constant, however long it is. -/
theorem Block.exists_compile_string (text : String) (span : Option Span) :
    ∃ program, (Block.mk [.mk (.expression (.string text)) span]).compile (.standardFrom 0) [] =
      .ok program := by
  have literal : ∀ part ∈ (Expression.string text).parts, part.IsLiteral :=
    List.forall_mem_singleton.2 trivial
  refine (isWellFormed_of_literal literal).exists_compile ?_
  change (Vocabulary.standardFrom 0).size + 0 + 3 + 8 ≤ operandLimit
  decide

/-- Text between quotes, with every quote in it written twice, is a program of one statement that
spans the whole and consists of the text alone. Its value is the text, read of it from every
memory. -/
theorem evaluate_literal (text : String) :
    Block.parse (literal text) = .ok (.mk [.mk (.expression (.string text))
      (some ⟨0, byteLength (literal text).toList⟩)]) ∧
    ∃ value, ((evaluate (literal text)).perform Store.empty).1 = .ok value ∧
      ∀ memory, (value.string? : Run (Option String)).perform memory =
        (.ok (some text), memory) := by
  refine ⟨Block.parse_literal text, ?_⟩
  obtain ⟨program, compiles⟩ := Block.exists_compile_string text
    (some ⟨0, byteLength (literal text).toList⟩)
  have evaluates : ((Expression.string text).evaluate
      ⟨0, [], .standardFrom 0, defaultCallLimit⟩).Yields (callAt callBudget)
        (.ok (.ofString text)) := Action.yields_pure _
  obtain ⟨value, ended, same⟩ := evaluate_of_evaluateAll (Block.parse_literal text) compiles
    (evaluates.located _ (Memory.opened []))
  have shows := (Value.shows_ofString text).anonymous same
  exact ⟨value, ended, shows.isRead.yields_string?⟩

end PointFree
