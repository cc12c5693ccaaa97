import PointFree.Proofs.Compilation.Lowering
import PointFree.Proofs.Spans.Faithful
import PointFree.Proofs.Spans.Roles
import PointFree.Proofs.Spans.Shifting

/-!
Contract: reading two texts as one.

Of two texts on lines of their own the first is read as it is read alone, and the second is read as
it is read alone but for its place: the statements of the first stand before its own. `Continues`
relates the brackets that are open in the two readings of the second text.
-/

namespace PointFree

variable {offset : Nat} {earlier : List RawStatement}

/-! ### The outermost level -/

namespace Level

/-- The outermost level of a text, and the same after other statements. Where no statement has
begun, the place of the last one does not count. -/
inductive Preceded (offset : Nat) (earlier : List RawStatement) : Level → Level → Prop where
  | mk (statements : List RawStatement) {start start' : Nat} {row : Row} :
      (row.isFresh = false → start' = start + offset) →
      Preceded offset earlier (.block statements start row)
        (.block (statements.map (RawStatement.shift offset) ++ earlier) start' (row.shift offset))

variable {level level' : Level}

theorem Preceded.currentRow (preceded : Preceded offset earlier level level') :
    level'.currentRow = level.currentRow.shift offset := by
  cases preceded
  rfl

theorem Preceded.isDivisible (preceded : Preceded offset earlier level level') :
    level.isDivisible = true ∧ level'.isDivisible = true := by
  cases preceded
  exact ⟨rfl, rfl⟩

/-- A statement that begins has its place in both readings. -/
theorem Preceded.startAt (preceded : Preceded offset earlier level level') (position : Nat) :
    ∃ statements start row, level.startAt position = .block statements start row ∧
      level'.startAt (position + offset) =
        .block (statements.map (RawStatement.shift offset) ++ earlier) (start + offset)
          (row.shift offset) := by
  cases preceded with
  | @mk statements start start' row starts =>
      rw [Level.startAt, Level.startAt, Row.isFresh_shift]
      cases fresh : row.isFresh with
      | true => exact ⟨statements, position, row, rfl, rfl⟩
      | false =>
          cases starts fresh
          exact ⟨statements, start, row, rfl, rfl⟩

theorem Preceded.tie (preceded : Preceded offset earlier level level')
    (some : level.currentRow.strands.isEmpty = false) :
    Preceded offset earlier (level.mapRow Row.tie) (level'.mapRow Row.tie) := by
  cases preceded with
  | @mk statements start start' row starts =>
      have busy : row.isFresh = false := by
        rw [Row.isFresh, show row.strands.isEmpty = false from some, Bool.false_and]
      exact .mk statements fun _ => starts busy

theorem Preceded.finishRow (preceded : Preceded offset earlier level level')
    {trimmed trimmed' : Nat}
    (trims : level.currentRow.isFresh = false → trimmed' = trimmed + offset) :
    Preceded offset earlier (level.finishRow trimmed) (level'.finishRow trimmed') := by
  cases preceded with
  | @mk statements start start' row starts =>
      rw [Level.finishRow, Level.finishRow, Row.isFresh_shift]
      cases fresh : row.isFresh with
      | true => exact .mk statements starts
      | false =>
          cases starts fresh
          cases trims fresh
          rw [Row.atoms_shift]
          have preceded : Preceded offset earlier
              (.block (.mk row.atoms ⟨start, trimmed⟩ :: statements) start .empty)
              (.block ((RawStatement.mk row.atoms ⟨start, trimmed⟩ :: statements).map
                (RawStatement.shift offset) ++ earlier) (start + offset) (Row.empty.shift offset)) :=
            .mk _ fun busy => absurd busy.symm Bool.false_ne_true
          rw [List.map_cons, RawStatement.shift_mk] at preceded
          exact preceded

end Level

/-! ### All levels -/

/-- The levels around the innermost one in the two readings. -/
inductive Level.Under (offset : Nat) (earlier : List RawStatement) : List Level → List Level → Prop
  where
  | base (statements : List RawStatement) (start : Nat) (row : Row) :
      Under offset earlier [.block statements start row]
        [.block (statements.map (RawStatement.shift offset) ++ earlier) (start + offset)
          (row.shift offset)]
  | inner (level : Level) {outer outer' : List Level} :
      Under offset earlier outer outer' →
      Under offset earlier (level :: outer) (level.shift offset :: outer')

/-- All levels in the two readings. -/
inductive Continues (offset : Nat) (earlier : List RawStatement) :
    Level × List Level → Level × List Level → Prop where
  | outermost {level level' : Level} :
      Level.Preceded offset earlier level level' →
      Continues offset earlier (level, []) (level', [])
  | inner {level level' : Level} {outer outer' : List Level} :
      Level.Moved offset level level' → Level.Under offset earlier outer outer' →
      Continues offset earlier (level, outer) (level', outer')

theorem Level.Under.length {outer outer' : List Level}
    (under : Level.Under offset earlier outer outer') :
    outer'.length = outer.length ∧ outer ≠ [] := by
  induction under with
  | base => exact ⟨rfl, List.cons_ne_nil _ _⟩
  | inner _ _ inductionHypothesis =>
      exact ⟨congrArg (· + 1) inductionHypothesis.1, List.cons_ne_nil _ _⟩

namespace Continues

/-- An atom on the outermost level. -/
theorem outermost_add (statements : List RawStatement) (start : Nat) (row : Row) (atom : Atom) :
    Continues offset earlier (.block statements start (row.add atom), [])
      (.block (statements.map (RawStatement.shift offset) ++ earlier) (start + offset)
        ((row.shift offset).add (atom.shift offset)), []) := by
  rw [← Row.add_shift]
  exact .outermost (.mk statements fun _ => rfl)

/-- An atom in the level that is reached when a bracket closes. -/
theorem closed {next : Level} {rest outer' : List Level} (atom : Atom)
    (under : Level.Under offset earlier (next :: rest) outer') :
    ∃ next' rest', outer' = next' :: rest' ∧
      Continues offset earlier (next.mapRow (·.add atom), rest)
        (next'.mapRow (·.add (atom.shift offset)), rest') := by
  cases under with
  | base statements start row => exact ⟨_, [], rfl, outermost_add statements start row atom⟩
  | inner level under =>
      refine ⟨_, _, rfl, ?_⟩
      rw [← Level.add_shift]
      exact .inner (.same _) under

theorem accept_outermost {placed : Placed} {level level' : Level} {ended : Level × List Level}
    {trimmed' : Nat} (preceded : Level.Preceded offset earlier level level')
    (isWord : placed.token.isWord = true)
    (trims : trimmed' = placed.trimmed + offset ∨ level.currentRow.isFresh = true)
    (accepts : Level.Accepts placed level [] ended) :
    ∃ ended', Level.Accepts
        { placed with start := placed.start + offset, trimmed := trimmed' } level' [] ended' ∧
      Continues offset earlier ended ended' := by
  cases accepts with
  | @atom atom kind =>
      have word := (congrArg Token.isWord kind).symm.trans isWord
      obtain ⟨statements, start, row, began, began'⟩ := preceded.startAt placed.start
      have added : Continues offset earlier _ _ := outermost_add statements start row atom
      refine ⟨_, .atom kind, ?_⟩
      rw [began, began']
      rwa [Atom.shift_of_isWord word] at added
  | opening kind fits =>
      obtain ⟨statements, start, row, began, began'⟩ := preceded.startAt placed.start
      refine ⟨_, .opening kind fits, ?_⟩
      rw [began, began']
      exact .inner (Level.moved_ofBracket _) (.base statements start row)
  | closing _ _ _ same => cases same
  | tie kind some free =>
      have row := preceded.currentRow
      refine ⟨_, .tie kind ?_ ?_, .outermost (preceded.tie some)⟩
      · rw [row, Row.isEmpty_shift]
        exact some
      · rw [row]
        exact free
  | separator kind divides free =>
      refine ⟨_, .separator kind preceded.isDivisible.2 (preceded.currentRow ▸ free), ?_⟩
      refine .outermost (preceded.finishRow fun busy => trims.resolve_right fun idle => ?_)
      cases busy.symm.trans idle
  | blank kind divides fresh =>
      refine ⟨_, .blank kind preceded.isDivisible.2 ?_, .outermost preceded⟩
      rw [preceded.currentRow, Row.isFresh_shift]
      exact fresh

theorem accept_inner {placed : Placed} {level level' : Level} {outer outer' : List Level}
    {ended : Level × List Level} (moved : Level.Moved offset level level')
    (under : Level.Under offset earlier outer outer') (isWord : placed.token.isWord = true)
    (accepts : Level.Accepts placed level outer ended) :
    ∃ ended', Level.Accepts
        { placed with start := placed.start + offset, trimmed := placed.trimmed + offset } level'
          outer' ended' ∧
      Continues offset earlier ended ended' := by
  have row := moved.currentRow
  have start := moved.startAt placed.start
  cases accepts with
  | @atom atom kind =>
      have word := (congrArg Token.isWord kind).symm.trans isWord
      have added := @Level.add_shift offset atom (level.startAt placed.start)
      rw [Atom.shift_of_isWord word, ← start] at added
      exact ⟨_, .atom kind, .inner (added ▸ .same _) under⟩
  | opening kind fits =>
      refine ⟨_, .opening kind (under.length.1 ▸ fits), .inner (Level.moved_ofBracket _) ?_⟩
      have below := Level.Under.inner (level.startAt placed.start) under
      rwa [← start] at below
  | @closing bracket atom next rest kind free closes same =>
      subst same
      obtain ⟨next', rest', rfl, continues⟩ := closed atom under
      refine ⟨_, .closing kind ?_ ?_ rfl, continues⟩
      · rw [row]
        exact free
      · rw [moved.close?, closes, Option.map_some]
  | tie kind some free =>
      refine ⟨_, .tie kind ?_ ?_, .inner (moved.tie some) under⟩
      · rw [row, Row.isEmpty_shift]
        exact some
      · rw [row]
        exact free
  | separator kind divides free =>
      refine ⟨_, .separator kind ?_ ?_, .inner (moved.finishRow _) under⟩
      · rw [moved.isDivisible]
        exact divides
      · rw [row]
        exact free
  | blank kind divides fresh =>
      refine ⟨_, .blank kind ?_ ?_, .inner moved under⟩
      · rw [moved.isDivisible]
        exact divides
      · rw [row, Row.isFresh_shift]
        exact fresh

/-- A token that is accepted in the one reading is accepted in the other. -/
theorem accept {placed : Placed} {levels levels' ended : Level × List Level} {trimmed' : Nat}
    (continues : Continues offset earlier levels levels') (isWord : placed.token.isWord = true)
    (trims : trimmed' = placed.trimmed + offset ∨
      levels.2 = [] ∧ levels.1.currentRow.isFresh = true)
    (accepts : Level.Accepts placed levels.1 levels.2 ended) :
    ∃ ended', Level.Accepts
        { placed with start := placed.start + offset, trimmed := trimmed' } levels'.1 levels'.2
          ended' ∧
      Continues offset earlier ended ended' := by
  cases continues with
  | outermost preceded =>
      exact accept_outermost preceded isWord (trims.imp_right And.right) accepts
  | inner moved under =>
      obtain rfl := trims.resolve_right fun idle => under.length.2 idle.1
      exact accept_inner moved under isWord accepts

end Continues

/-! ### Passages -/

/-- A token that divides something opens and closes nothing. -/
theorem Level.Accepts.outer_eq {placed : Placed} {level : Level} {outer : List Level}
    {levels : Level × List Level} (accepts : Level.Accepts placed level outer levels)
    (divides : placed.token.isSolid = false) : levels.2 = outer := by
  cases accepts with
  | atom | tie | separator | blank => rfl
  | opening kind | closing kind => simp [kind, Token.isSolid] at divides

/-- The two readings of the second text have come equally far. Where nothing has begun yet, the
end of the text before does not count. -/
structure Progress.Continues (offset : Nat) (earlier : List RawStatement)
    (progress progress' : Progress) : Prop where
  position : progress'.position = progress.position + offset
  levels : PointFree.Continues offset earlier (progress.level, progress.outer)
    (progress'.level, progress'.outer)
  trimmed : progress'.trimmed = progress.trimmed + offset ∨
    progress.outer = [] ∧ progress.level.currentRow.isFresh = true

namespace Progress.Continues

variable {progress progress' : Progress}

/-- Beyond a text that begins with no blank the ends of both texts are related. -/
theorem trimmed_passAll (continues : progress.Continues offset earlier progress') {letter : Char}
    (visible : Text.isBlank letter = false) (rest : List Char) :
    (progress'.passAll (letter :: rest)).trimmed =
      (progress.passAll (letter :: rest)).trimmed + offset := by
  have next : (progress'.pass letter).position = (progress.pass letter).position + offset :=
    position_shift continues.position [letter]
  refine trimmed_shift next ?_ rest
  rw [pass, pass, visible]
  exact next

theorem passAll (continues : progress.Continues offset earlier progress') {letter : Char}
    (visible : Text.isBlank letter = false) (rest : List Char) :
    (progress.passAll (letter :: rest)).Continues offset earlier
      (progress'.passAll (letter :: rest)) where
  position := position_shift continues.position _
  levels := by
    rw [passAll_level, passAll_level, passAll_outer, passAll_outer]
    exact continues.levels
  trimmed := .inl (continues.trimmed_passAll visible rest)

theorem gap (continues : progress.Continues offset earlier progress') {letter : Char}
    (isGap : isGap letter = true) :
    (progress.pass letter).Continues offset earlier (progress'.pass letter) where
  position := position_shift continues.position [letter]
  levels := continues.levels
  trimmed := by
    rw [pass, pass, if_pos (isBlank_of_isGap isGap), if_pos (isBlank_of_isGap isGap)]
    exact continues.trimmed

theorem token (continues : progress.Continues offset earlier progress') {letter : Char}
    {more after : List Char} {token : Token} {levels : Level × List Level}
    (isToken : Scan.ofLetter letter (more ++ after) = .token token more.length)
    (accepted : progress.level.accept (progress.place letter token) progress.outer = .ok levels) :
    ∃ levels', progress'.level.accept (progress'.place letter token) progress'.outer = .ok levels' ∧
      ((progress.passAll (letter :: more)).within levels).Continues offset earlier
        ((progress'.passAll (letter :: more)).within levels') := by
  have scanned := Scan.scanned isToken
  have accepts := Level.accepts_of_accept accepted
  obtain ⟨levels', accepts', further⟩ :=
    continues.levels.accept scanned.isWord continues.trimmed accepts
  have placed : { progress.place letter token with
      start := (progress.place letter token).start + offset, trimmed := progress'.trimmed } =
      progress'.place letter token := by
    rw [place, place, continues.position]
  rw [placed] at accepts'
  refine ⟨levels', accepts'.accept, position_shift continues.position _, further, ?_⟩
  cases solid : token.isSolid with
  | true => exact .inl (continues.trimmed_passAll (scanned.begins solid) more)
  | false =>
      refine continues.trimmed.imp (fun ends => trimmed_shift continues.position ends _) fun idle => ?_
      exact ⟨(accepts.outer_eq solid).trans idle.1, accepts.isFresh solid⟩

end Progress.Continues

section Texts

variable {first first' last : Progress} {letters after : List Char}

/-- The second text is read after the first as it is read alone. -/
theorem Reads.continues (reads : Reads first letters after last)
    (begins : first.Continues offset earlier first') :
    ∃ last', Reads first' letters after last' ∧ last.Continues offset earlier last' := by
  induction reads with
  | refl => exact ⟨first', .refl _, begins⟩
  | gap _ isGap inductionHypothesis =>
      obtain ⟨last', reads', continues⟩ := inductionHypothesis
      exact ⟨_, reads'.gap isGap, continues.gap isGap⟩
  | comment _ line ends inductionHypothesis =>
      obtain ⟨last', reads', continues⟩ := inductionHypothesis
      exact ⟨_, reads'.comment line ends, continues.passAll (by decide) _⟩
  | token _ noGap noComment isToken accepted inductionHypothesis =>
      obtain ⟨last', reads', continues⟩ := inductionHypothesis
      obtain ⟨levels', accepted', further⟩ := continues.token isToken accepted
      exact ⟨_, reads'.token noGap noComment isToken accepted', further⟩

theorem Progress.finish_eq_ok {progress : Progress} {statements : List RawStatement}
    (finished : progress.finish = .ok statements) :
    progress.outer = [] ∧ progress.level.currentRow.tied = false ∧
      ∃ start row, progress.level.finishRow progress.trimmed =
        .block statements.reverse start row := by
  unfold finish Level.finish at finished
  split at finished
  · cases finished
  · next free =>
      split at finished
      · next found _ _ ended outermost =>
          cases finished
          rw [List.reverse_reverse]
          exact ⟨outermost, Bool.eq_false_iff.2 free, _, _, ended⟩
      · cases finished

theorem Progress.finish_of_finishRow {progress : Progress} {statements : List RawStatement}
    {start : Nat} {row : Row} (outermost : progress.outer = [])
    (free : progress.level.currentRow.tied = false)
    (ended : progress.level.finishRow progress.trimmed = .block statements start row) :
    progress.finish = .ok statements.reverse := by
  unfold finish Level.finish
  rw [if_neg (by simp [free]), ended, outermost]

/-- At the end of the second text the statements of both have been read. -/
theorem Progress.Continues.finish {progress progress' : Progress} {statements : List RawStatement}
    (continues : progress.Continues offset earlier progress')
    (finished : progress.finish = .ok statements) :
    progress'.finish = .ok (earlier.reverse ++ statements.map (RawStatement.shift offset)) := by
  obtain ⟨outermost, free, start, row, ended⟩ := finish_eq_ok finished
  have trims := continues.trimmed
  obtain ⟨position, trimmed, level, outer⟩ := progress
  obtain ⟨position', trimmed', level', outer'⟩ := progress'
  have levels := continues.levels
  dsimp only at outermost free ended trims levels
  subst outermost
  cases levels with
  | inner _ under => exact absurd rfl under.length.2
  | outermost preceded =>
      have finishes : Level.Preceded offset earlier _ (level'.finishRow trimmed') :=
        preceded.finishRow fun busy => trims.resolve_right fun idle => by
          cases busy.symm.trans idle.2
      rw [ended] at finishes
      generalize ended' : level'.finishRow trimmed' = found at finishes
      cases finishes with
      | mk =>
          rw [Progress.finish_of_finishRow rfl (preceded.currentRow ▸ free) ended']
          simp

end Texts

/-! ### Two texts -/

/-- A new line ends the last statement of a text. -/
theorem Progress.finish_newline {progress : Progress} {statements : List RawStatement}
    (finished : progress.finish = .ok statements) (after : List Char) :
    ∃ progress', Reads progress ['\n'] after progress' ∧
      start.Continues progress'.position statements.reverse progress' := by
  obtain ⟨outermost, free, place, row, ended⟩ := finish_eq_ok finished
  have divides : progress.level.isDivisible = true := by
    generalize progress.level = level at ended
    cases level with
    | paren => cases ended
    | list | block => rfl
  have fresh := Level.isFresh_finishRow divides progress.trimmed
  have accepts : Level.Accepts (progress.place '\n' .separator) progress.level progress.outer
      (progress.level.finishRow progress.trimmed, progress.outer) :=
    .separator rfl divides free
  refine ⟨_, .token (.refl _) rfl (by decide) rfl accepts.accept, (Nat.zero_add _).symm, ?_,
    .inr ⟨rfl, rfl⟩⟩
  rw [ended] at fresh
  have empty : row = .empty := Row.eq_empty_of_isFresh fresh
  rw [within, ended, outermost, empty]
  exact .outermost (.mk [] fun busy => absurd busy.symm Bool.false_ne_true)

/-- A text and the new line after it are read up to a place from which what follows is read as it
is read alone. -/
theorem exists_reads_line {first : String} {statements : List RawStatement}
    (reads : rawStatements first = .ok statements) (second : String) :
    ∃ between, between.position = byteLength first.toList + 1 ∧
      Progress.start.Continues between.position statements.reverse between ∧
      rawStatements (first ++ "\n" ++ second) = between.resume second.toList := by
  rw [← Progress.resume_start] at reads ⊢
  obtain ⟨last, passes, finished⟩ := Progress.exists_reads reads
  have newline : Char.IsStop '\n' := by decide
  have kept : Reads .start first.toList ('\n' :: second.toList) last :=
    passes.swap [] rfl (fun _ letter isHead => by cases isHead; rfl) stops_nil (stops_cons newline)
  obtain ⟨between, passesLine, begins⟩ := Progress.finish_newline finished second.toList
  have begun : Reads .start (first.toList ++ ['\n']) second.toList between := kept.trans passesLine
  refine ⟨between, ?_, begins, ?_⟩
  · rw [begun.position_eq, byteLength_append]
    exact Nat.zero_add _
  · have letters : (first ++ "\n" ++ second).toList = first.toList ++ ['\n'] ++ second.toList := by
      rw [String.toList_append, String.toList_append]
      rfl
    rw [letters, begun.resume_eq]

/-- Of two texts on lines of their own the statements are those of both, those of the second in
their places there. -/
theorem rawStatements_append {first second : String} {statements others : List RawStatement}
    (reads : rawStatements first = .ok statements) (readsOthers : rawStatements second = .ok others) :
    rawStatements (first ++ "\n" ++ second) =
      .ok (statements ++ others.map (RawStatement.shift (byteLength first.toList + 1))) := by
  obtain ⟨between, place, begins, whole⟩ := exists_reads_line reads second
  rw [← Progress.resume_start] at readsOthers
  obtain ⟨_, passesOthers, finishedOthers⟩ := Progress.exists_reads readsOthers
  obtain ⟨final, passesRest, continues⟩ := passesOthers.continues begins
  have rest := passesRest.resume_eq
  rw [List.append_nil] at rest
  rw [whole, rest, Progress.resume_nil, continues.finish finishedOthers, place, List.reverse_reverse]

theorem RawStatement.readAll_append {first second : List RawStatement}
    {statements others : List Statement} (reads : readAll first = .ok statements)
    (readsOthers : readAll second = .ok others) :
    readAll (first ++ second) = .ok (statements ++ others) := by
  induction first generalizing statements with
  | nil =>
      cases reads
      exact readsOthers
  | cons statement first inductionHypothesis =>
      obtain ⟨read, isRead, reads⟩ := Outcome.bind_eq_ok.1 reads
      obtain ⟨rest, isRest, same⟩ := Outcome.bind_eq_ok.1 reads
      cases same
      rw [List.cons_append, readAll, isRead, inductionHypothesis isRest]
      rfl

theorem Block.parse_append {first second : String} {block other : Block}
    (reads : Block.parse first = .ok block) (readsOther : Block.parse second = .ok other) :
    Block.parse (first ++ "\n" ++ second) = .ok (.mk (block.statements ++
      other.statements.map (Statement.shift (byteLength first.toList + 1)))) := by
  obtain ⟨raw, isRaw, reads⟩ := Outcome.bind_eq_ok.1 reads
  obtain ⟨statements, isRead, same⟩ := Outcome.bind_eq_ok.1 reads
  cases same
  obtain ⟨raw', isRaw', readsOther⟩ := Outcome.bind_eq_ok.1 readsOther
  obtain ⟨others, isRead', same⟩ := Outcome.bind_eq_ok.1 readsOther
  cases same
  have alike := RawStatement.readAll_alike (byteLength first.toList + 1) raw'
  rw [isRead', RawStatement.shiftAll_eq_map] at alike
  generalize moved : RawStatement.readAll (raw'.map _) = outcome at alike
  cases alike with
  | ok same =>
      subst same
      rw [Block.parse, rawStatements_append isRaw isRaw']
      have both := RawStatement.readAll_append isRead moved
      exact Outcome.bind_eq_ok.2 ⟨_, rfl, Outcome.bind_eq_ok.2 ⟨_, both, rfl⟩⟩

/-! ### Many texts -/

mutual

theorem Expression.shift_zero : ∀ expression : Expression, expression.shift 0 = expression
  | .list items => congrArg Expression.list (Expression.shiftAll_zero items)
  | .call function right => congrArg₂ Expression.call function.shift_zero right.shift_zero
  | .callBoth function left right => by
      rw [Expression.shift, function.shift_zero, left.shift_zero, right.shift_zero]
  | .modifyOne glyph operand => congrArg (Expression.modifyOne glyph) operand.shift_zero
  | .modifyTwo glyph left right =>
      congrArg₂ (Expression.modifyTwo glyph) left.shift_zero right.shift_zero
  | .atop left right => congrArg₂ Expression.atop left.shift_zero right.shift_zero
  | .fork left middle right => by
      rw [Expression.shift, left.shift_zero, middle.shift_zero, right.shift_zero]
  | .block body => congrArg Expression.block body.shift_zero
  | .number _ | .character _ | .string _ | .name _ | .primitive _ | .implicit _ => rfl
termination_by structural expression => expression

theorem Expression.shiftAll_zero : ∀ items : List Expression, Expression.shiftAll 0 items = items
  | [] => rfl
  | item :: items => congrArg₂ List.cons item.shift_zero (Expression.shiftAll_zero items)
termination_by structural items => items

theorem Clause.shift_zero : ∀ clause : Clause, clause.shift 0 = clause
  | .expression result => congrArg Clause.expression result.shift_zero
  | .define target value => congrArg (Clause.define target) value.shift_zero
  | .assign target value => congrArg (Clause.assign target) value.shift_zero
  | .modify name function none => congrArg (Clause.modify name · none) function.shift_zero
  | .modify name function (some argument) => by
      rw [Clause.shift, function.shift_zero, argument.shift_zero]
  | .guard test fallback => congrArg₂ Clause.guard test.shift_zero fallback.shift_zero
termination_by structural clause => clause

theorem Statement.shift_zero : ∀ statement : Statement, statement.shift 0 = statement
  | .mk clause none => congrArg (Statement.mk · none) clause.shift_zero
  | .mk clause (some span) => congrArg (Statement.mk · (some span)) clause.shift_zero
termination_by structural statement => statement

theorem Statement.shiftAll_zero : ∀ statements : List Statement,
    Statement.shiftAll 0 statements = statements
  | [] => rfl
  | statement :: statements =>
      congrArg₂ List.cons statement.shift_zero (Statement.shiftAll_zero statements)
termination_by structural statements => statements

/-- Where nothing comes before a block it stands where it stands alone. -/
theorem Block.shift_zero : ∀ block : Block, block.shift 0 = block
  | .mk statements => congrArg Block.mk (Statement.shiftAll_zero statements)
termination_by structural block => block

end

/-- The statements of the lines before a line, where they stand in the whole. -/
def joinedBefore (lines : Nat → Block) (offsets : Nat → Nat) (next : Nat) : List Statement :=
  (List.range next).flatMap fun line =>
    (lines line).statements.map (Statement.shift (offsets line))

theorem joinedBefore_succ (lines : Nat → Block) (offsets : Nat → Nat) (next : Nat) :
    joinedBefore lines offsets (next + 1) = joinedBefore lines offsets next ++
      (lines next).statements.map (Statement.shift (offsets next)) := by
  rw [joinedBefore, List.range_succ, List.flatMap_append, List.flatMap_singleton]
  rfl

theorem joinedBefore_congr {lines : Nat → Block} {offsets offsets' : Nat → Nat} {next : Nat}
    (same : ∀ line < next, offsets line = offsets' line) :
    joinedBefore lines offsets next = joinedBefore lines offsets' next :=
  List.flatMap_congr fun line member => by rw [same line (List.mem_range.1 member)]

theorem intercalate_concat (separator first last : String) (rest : List String) :
    separator.intercalate (first :: (rest ++ [last])) =
      separator.intercalate (first :: rest) ++ separator ++ last := by
  -- Two texts at the front can be joined first.
  have join (first second : String) (rest : List String) :
      separator.intercalate (first :: second :: rest) =
        separator.intercalate ((first ++ separator ++ second) :: rest) := rfl
  induction rest generalizing first with
  | nil => rfl
  | cons second rest inductionHypothesis =>
      rw [List.cons_append, join, join]
      exact inductionHypothesis _

/-- Texts on lines of their own are read as they are read alone, in their places. -/
theorem Block.parse_joined {blocks : Nat → Block} {lines : List String} (some : lines ≠ [])
    (reads : ∀ (index : Nat) (line : String), lines[index]? = .some line →
      Block.parse line = .ok (blocks index)) :
    ∃ offsets, Block.parse ("\n".intercalate lines) =
      .ok (.mk (joinedBefore blocks offsets lines.length)) := by
  obtain ⟨first, rest, rfl⟩ := List.exists_cons_of_ne_nil some
  induction rest using List.reverseRecOn with
  | nil =>
      have whole : joinedBefore blocks (fun _ => 0) 1 = (blocks 0).statements := by
        have zero := funext Statement.shift_zero
        rw [joinedBefore_succ, zero]
        exact List.map_id _
      refine ⟨fun _ => 0, (reads 0 first rfl).trans ?_⟩
      rw [List.length_singleton, whole]
      generalize blocks 0 = block
      cases block
      rfl
  | append_singleton rest last inductionHypothesis =>
      have before : first :: (rest ++ [last]) = first :: rest ++ [last] := rfl
      obtain ⟨offsets, begins⟩ := inductionHypothesis (List.cons_ne_nil _ _) fun index line isLine => by
        refine reads index line ?_
        rw [before, List.getElem?_append_left (List.getElem?_eq_some_iff.1 isLine).1, isLine]
      have isLast : (first :: rest ++ [last])[(first :: rest).length]? = .some last :=
        List.getElem?_concat_length
      have ends := Block.parse_append begins (reads _ last isLast)
      generalize byteLength ("\n".intercalate (first :: rest)).toList + 1 = offset at ends
      have same : joinedBefore blocks offsets (first :: rest).length =
          joinedBefore blocks (fun line => if line < (first :: rest).length then offsets line
            else offset) (first :: rest).length :=
        joinedBefore_congr fun line inside => (if_pos inside).symm
      refine ⟨fun line => if line < (first :: rest).length then offsets line else offset, ?_⟩
      rw [intercalate_concat, ends, before, List.length_append, List.length_singleton,
        joinedBefore_succ, if_neg (Nat.lt_irrefl _), ← same]
      rfl

end PointFree
