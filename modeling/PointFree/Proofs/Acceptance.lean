import PointFree.Proofs.Acceptance.Queue

/-!
Contract: the compiler accepts the programs and nothing else.

The tasks of the work queue are the bodies that stand in the program, each with the names
of the blocks around it. So a fault that the queue reports breaks a rule at some body of
the tree, and a tree that breaks no rule has no fault. What remains are programs so large
that an operand does not fit in a word.
-/

namespace PointFree

/-! ### Bodies and their tasks -/

section Standing

variable {externals : List String} {vocabulary : Vocabulary} {whole : Block}

/-- The names that a body begins with: those from outside if it is the whole program. -/
def Block.given (externals : List String) (around : List Block) : Scope :=
  if around.isEmpty then externals else []

/-- The scopes of the blocks around a body, each with all its names. -/
def Block.scopes (externals : List String) : List Block → List Scope
  | [] => []
  | body :: around => (given externals around ++ body.declares) :: scopes externals around

/-- The task of a body with the given blocks around it. -/
def Block.task (externals : List String) (around : List Block) (body : Block) : Task :=
  ⟨body, scopes externals around, given externals around⟩

theorem Block.mem_bodies {body inner : Block} :
    inner ∈ body.bodies ↔
      ∃ statement ∈ body.statements, .block inner ∈ statement.clause.parts := by
  rw [bodies, List.mem_flatMap]
  refine exists_congr fun statement => and_congr_right fun _ => ?_
  rw [Expression.bodies, List.mem_filterMap]
  constructor
  · rintro ⟨part, member, isBody⟩
    cases part with
    | block body =>
        cases isBody
        exact member
    | number _ | character _ | string _ | name _ | primitive _ | implicit _ | list _ | call _ _
    | callBoth _ _ _ | modifyOne _ _ | modifyTwo _ _ _ | atop _ _ | fork _ _ _ => cases isBody
  · intro member
    exact ⟨_, member, rfl⟩

/-- A name is visible in a body that declared some names. -/
theorem Block.visible_iff {name : String} {around : List Block} {names : List String} :
    (∃ scope ∈ (given externals around ++ names) :: scopes externals around, name ∈ scope) ↔
      name ∈ names ∨ (∃ block ∈ around, name ∈ block.declares) ∨ name ∈ externals := by
  induction around generalizing names with
  | nil =>
      rw [given, scopes]
      simp [or_comm]
  | cons body around inductionHypothesis =>
      have outside := @inductionHypothesis body.declares
      have none : given externals (body :: around) ++ names = names := List.nil_append names
      rw [scopes, none]
      simp only [List.mem_cons, or_and_right, exists_or, exists_eq_left] at outside ⊢
      rw [outside, or_assoc]

theorem Task.Refuses.stands {task : Task} {fault : Fault}
    (refuses : task.Refuses vocabulary fault) {around : List Block} {body : Block}
    (nests : whole.Nests around body) (isTask : task = Block.task externals around body) :
    ∃ around body, whole.Nests around body ∧ Statement.Refuse vocabulary
      (Block.scopes externals around) (Block.given externals around) body.statements fault := by
  induction refuses generalizing around body with
  | here refuse =>
      subst isTask
      exact ⟨around, body, nests, refuse⟩
  | literal member _ inductionHypothesis =>
      subst isTask
      obtain ⟨inner, isInner, rfl⟩ := List.mem_map.1 member
      obtain ⟨statement, isStatement, part⟩ := Block.mem_bodies.1 isInner
      exact inductionHypothesis (.literal nests isStatement part) rfl

/-- A task is refused for a fault of one of the bodies that stand in it. -/
theorem Block.refuses_iff {fault : Fault} :
    (task externals [] whole).Refuses vocabulary fault ↔
      ∃ around body, whole.Nests around body ∧ Statement.Refuse vocabulary
        (scopes externals around) (given externals around) body.statements fault := by
  constructor
  · exact fun refuses => refuses.stands .whole rfl
  · rintro ⟨around, body, nests, refuse⟩
    have root : (task externals around body).Refuses vocabulary fault →
        (task externals [] whole).Refuses vocabulary fault := by
      clear refuse
      induction nests with
      | whole => exact id
      | literal _ isStatement part inductionHypothesis =>
          intro refuses
          have member := mem_bodies.2 ⟨_, isStatement, part⟩
          exact inductionHypothesis (.literal (List.mem_map_of_mem member) refuses)
    exact root (.here refuse)

end Standing

/-! ### Faults and rules -/

/-- Names that come one after another are distinct if none has come before. -/
theorem nodup_of_fresh {α : Type} {names : α → List String} {before : List String}
    {items : List α} (distinct : before.Nodup)
    (fresh : ∀ earlier item later, items = earlier ++ item :: later → (names item).Nodup ∧
      ∀ name ∈ names item, name ∉ before ++ earlier.flatMap names) :
    (before ++ items.flatMap names).Nodup := by
  induction items generalizing before with
  | nil => simpa using distinct
  | cons item rest inductionHypothesis =>
      obtain ⟨own, new⟩ := fresh [] item rest rfl
      have extended : (before ++ names item).Nodup := by
        refine List.nodup_append.2 ⟨distinct, own, ?_⟩
        rintro name here _ member rfl
        exact new name member (List.mem_append_left _ here)
      have later := inductionHypothesis extended fun earlier next later split => by
        have there := fresh (item :: earlier) next later (congrArg (item :: ·) split)
        simpa using there
      simpa using later

namespace Block

variable {whole : Block} {vocabulary : Vocabulary} {externals : List String}

/-- What is wrong with a program: a name comes from outside twice, or a statement of some
body is refused. -/
def Faulty (whole : Block) (vocabulary : Vocabulary) (externals : List String) (fault : Fault) :
    Prop :=
  (∃ earlier name later, externals = earlier ++ name :: later ∧ name ∈ earlier ∧
    fault = .alreadyDefined name) ∨
  ∃ around body, whole.Nests around body ∧ Statement.Refuse vocabulary
    (scopes externals around) (given externals around) body.statements fault

/-- The names of a body are distinct, those from outside included. -/
theorem IsSingular.nodup (singular : whole.IsSingular externals) {around : List Block}
    {body : Block} (nests : whole.Nests around body) :
    (given externals around ++ body.declares).Nodup := by
  cases nests with
  | whole => exact singular.1
  | literal outer isStatement part => exact singular.2 _ _ (.literal outer isStatement part)

/-- In a program that is sound otherwise, a fault is a name that is not declared. -/
theorem IsSound.unbound (sound : whole.IsSound vocabulary externals) {fault : Fault}
    (faulty : whole.Faulty vocabulary externals fault) :
    (∃ name, fault = .notDefined name) ∧ ¬whole.IsBound externals := by
  obtain ⟨earlier, name, later, rfl, member, rfl⟩ |
    ⟨around, body, nests, earlier, statement, later, split, refuses⟩ := faulty
  · have distinct := (List.nodup_append.1 (List.nodup_append.1 sound.singular.1).1).2.2
    exact absurd rfl (distinct name member name (.head _))
  · have isStatement : statement ∈ body.statements := by simp [split]
    cases refuses with
    | unbound mentions missing =>
        refine ⟨⟨_, rfl⟩, fun bound => ?_⟩
        obtain ⟨scope, isScope, here⟩ :=
          visible_iff.2 (bound around body nests earlier statement later split _ mentions)
        exact missing scope isScope here
    | redeclared member here =>
        have distinct := sound.singular.nodup nests
        rw [declares, split, List.flatMap_append, ← List.append_assoc] at distinct
        have apart := (List.nodup_append.1 distinct).2.2 _ here
        exact absurd rfl (apart _ (List.mem_append_left _ member))
    | target isTarget wrong =>
        obtain ⟨filled, distinct⟩ :=
          sound.targeted around body nests statement isStatement _ isTarget
        cases wrong with
        | empty contains => exact absurd contains filled
        | repeated twice => exact absurd distinct twice
    | guard isLast isGuard =>
        obtain rfl := List.isEmpty_iff.1 isLast
        have goes := sound.continued around body nests statement (by simp [split])
        rw [goes] at isGuard
        cases isGuard
    | primitive member missing =>
        obtain ⟨value, known⟩ :=
          sound.worded.primitive around body nests statement isStatement _ member
        have absent := Array.findIdx?_eq_none_iff.1 missing _ known
        simp at absent
    | one member missing =>
        obtain ⟨modifier, rfl⟩ :=
          sound.worded.one around body nests statement isStatement _ _ member
        rw [OneModifier.ofGlyph?_glyph] at missing
        cases missing
    | two member missing =>
        obtain ⟨modifier, rfl⟩ :=
          sound.worded.two around body nests statement isStatement _ _ _ member
        rw [TwoModifier.ofGlyph?_glyph] at missing
        cases missing

section Clean

variable (clean : ∀ fault, ¬whole.Faulty vocabulary externals fault) {around : List Block}
  {body : Block} (nests : whole.Nests around body)

include clean nests

theorem not_refuses_of_clean {earlier later : List Statement} {statement : Statement}
    (split : body.statements = earlier ++ statement :: later) (fault : Fault) :
    ¬statement.clause.Refuses vocabulary (scopes externals around)
      (given externals around ++ Statement.declaredBy earlier) later.isEmpty fault :=
  fun refuses => clean fault (.inr ⟨around, body, nests, earlier, statement, later, split, refuses⟩)

theorem exists_not_refuses_of_clean {statement : Statement} (member : statement ∈ body.statements) :
    ∃ earlier last, ∀ fault, ¬statement.clause.Refuses vocabulary (scopes externals around)
      (given externals around ++ Statement.declaredBy earlier) last fault := by
  obtain ⟨earlier, later, split⟩ := List.append_of_mem member
  exact ⟨earlier, later.isEmpty, not_refuses_of_clean clean nests split⟩

theorem targets_of_clean {statement : Statement} (member : statement ∈ body.statements)
    {target : Target} (isTarget : statement.clause.target? = some target) :
    ¬target.Contains (.list []) ∧ target.names.Nodup := by
  obtain ⟨earlier, last, accepted⟩ := exists_not_refuses_of_clean clean nests member
  constructor
  · exact fun contains => accepted _ (.target isTarget (.empty contains))
  · by_contra twice
    exact accepted (.repeatedTarget "") (.target isTarget (.repeated twice))

theorem nodup_of_clean : (given externals around ++ body.declares).Nodup := by
  have outside : (given externals around).Nodup := by
    rw [given]
    split
    · have distinct : ([] ++ externals.flatMap fun name => [name]).Nodup :=
        nodup_of_fresh .nil fun earlier name later split => by
          refine ⟨by simp, fun other member here => ?_⟩
          obtain rfl := List.mem_singleton.1 member
          rw [List.nil_append, List.flatMap_singleton'] at here
          exact clean _ (.inl ⟨earlier, _, later, split, here, rfl⟩)
      rwa [List.nil_append, List.flatMap_singleton'] at distinct
    · exact .nil
  refine nodup_of_fresh outside fun earlier statement later split =>
    ⟨?_, fun name member here => ?_⟩
  · cases isClause : statement.clause with
    | define target value =>
        have isStatement : statement ∈ body.statements := by simp [split]
        exact (targets_of_clean clean nests isStatement (by rw [isClause]; rfl)).2
    | expression _ | assign _ _ | modify _ _ _ | guard _ _ => exact .nil
  · exact not_refuses_of_clean clean nests split _ (.redeclared member here)

end Clean

/-- A program without faults keeps every rule. -/
theorem isWellFormed_of_clean (clean : ∀ fault, ¬whole.Faulty vocabulary externals fault) :
    whole.IsWellFormed vocabulary externals := by
  refine ⟨?bound, ⟨nodup_of_clean clean .whole, ?singular⟩, ?targeted, ?continued,
    ⟨?primitive, ?one, ?two⟩⟩
  case bound =>
    intro around body nests earlier statement later split name mentions
    by_contra hidden
    exact not_refuses_of_clean clean nests split _ (.unbound mentions fun scope isScope here =>
      hidden (visible_iff.1 ⟨scope, isScope, here⟩))
  case singular =>
    intro around body nests
    exact (List.nodup_append.1 (nodup_of_clean clean nests)).2.1
  case targeted =>
    intro around body nests statement member target isTarget
    exact targets_of_clean clean nests member isTarget
  case continued =>
    intro around body nests statement isLast
    obtain ⟨earlier, split⟩ := List.getLast?_eq_some_iff.1 isLast
    by_contra isGuard
    exact not_refuses_of_clean clean nests split _ (.guard rfl (by simpa using isGuard))
  case primitive =>
    intro around body nests statement member word part
    obtain ⟨earlier, last, accepted⟩ := exists_not_refuses_of_clean clean nests member
    by_contra unknown
    refine accepted _ (.primitive part (Array.findIdx?_eq_none_iff.2 fun entry isEntry => ?_))
    obtain ⟨name, value⟩ := entry
    have other : name ≠ word := fun same => unknown ⟨value, same ▸ isEntry⟩
    simpa using other
  case one =>
    intro around body nests statement member glyph operand part
    obtain ⟨earlier, last, accepted⟩ := exists_not_refuses_of_clean clean nests member
    by_contra unknown
    refine accepted _ (.one part (List.find?_eq_none.2 fun modifier _ isGlyph => ?_))
    exact unknown ⟨modifier, by simpa using isGlyph⟩
  case two =>
    intro around body nests statement member glyph left right part
    obtain ⟨earlier, last, accepted⟩ := exists_not_refuses_of_clean clean nests member
    by_contra unknown
    refine accepted _ (.two part (List.find?_eq_none.2 fun modifier _ isGlyph => ?_))
    exact unknown ⟨modifier, by simpa using isGlyph⟩

end Block

/-- A block is compiled exactly if it is a program, unless it is so large that an operand
does not fit in a word. If nothing is wrong but that a name is not declared where it is
mentioned, compiling fails for an undefined name. -/
theorem Block.compile_accepts (block : Block) (vocabulary : Vocabulary)
    (externals : List String) :
    (∃ failure operand, block.compile vocabulary externals = .error failure ∧
      failure.fault = .operandTooLarge operand ∧ operandLimit ≤ operand ∧
      operand < block.operandBound vocabulary externals) ∨
    ((∃ program, block.compile vocabulary externals = .ok program) ↔
      block.IsWellFormed vocabulary externals) ∧
    (block.IsSound vocabulary externals → ¬block.IsBound externals →
      ∃ failure, block.compile vocabulary externals = .error failure ∧
        failure.kind = .undefinedName) := by
  refine (block.compile_reports vocabulary externals).imp_right fun reports => ?_
  have faults : (block.compile vocabulary externals).Reports
      (block.Faulty vocabulary externals) :=
    reports.imp fun fault => or_congr_right refuses_iff
  cases compiled : block.compile vocabulary externals with
  | ok program =>
      rw [compiled] at faults
      have wellFormed := isWellFormed_of_clean faults
      exact ⟨iff_of_true ⟨program, rfl⟩ wellFormed, fun _ unbound => absurd wellFormed.1 unbound⟩
  | error failure =>
      rw [compiled] at faults
      refine ⟨iff_of_false (fun ⟨_, done⟩ => nomatch done) fun wellFormed => ?_, fun sound _ => ?_⟩
      · exact (wellFormed.2.unbound faults).2 wellFormed.1
      · obtain ⟨⟨name, isFault⟩, _⟩ := sound.unbound faults
        refine ⟨failure, rfl, ?_⟩
        rw [Failure.kind, isFault]
        rfl

end PointFree
