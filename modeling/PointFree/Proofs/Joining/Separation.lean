import PointFree.Proofs.Joining.Reading
import PointFree.Proofs.Spans

/-!
Contract: a new line keeps two texts apart.

What follows a text and a new line is accepted there exactly if it is accepted alone. That it is
accepted there if it is accepted alone is in `PointFree.Proofs.Joining.Reading`; here the readings
are followed in the other direction. Each step of the reading after the first text has its
counterpart in the reading of the second text alone, so nothing can reach over the new line.
-/

namespace PointFree

variable {offset : Nat} {earlier : List RawStatement}

/-! ### Tokens -/

/-- A bracket that closes after other text closes alone. -/
theorem Level.Moved.close?_eq_some {level level' : Level} (moved : Moved offset level level')
    {bracket : Bracket} {trimmed : Nat} {atom' : Atom}
    (closes : level'.close? bracket (trimmed + offset) = some atom') :
    ∃ atom, level.close? bracket trimmed = some atom := by
  rw [moved.close?] at closes
  obtain ⟨atom, closed, _⟩ := Option.map_eq_some_iff.1 closes
  exact ⟨atom, closed⟩

theorem Level.Under.exists_cons {outer : List Level} {next' : Level} {rest' : List Level}
    (under : Level.Under offset earlier outer (next' :: rest')) :
    ∃ next rest, outer = next :: rest :=
  List.exists_cons_of_ne_nil under.length.2

theorem Level.Preceded.exists_finishRow {level level' : Level}
    (preceded : Level.Preceded offset earlier level level') (trimmed : Nat) :
    ∃ statements start row, level.finishRow trimmed = .block statements start row := by
  cases preceded with
  | @mk statements start _ row _ =>
      rw [Level.finishRow]
      split
      · exact ⟨statements, start, row, rfl⟩
      · exact ⟨_, start, .empty, rfl⟩

/-- A token that is accepted after other text is accepted in the reading of the text alone. -/
theorem Continues.accept_alone {placed : Placed} {levels levels' ended' : Level × List Level}
    {trimmed' : Nat} (continues : Continues offset earlier levels levels')
    (trims : trimmed' = placed.trimmed + offset ∨
      levels.2 = [] ∧ levels.1.currentRow.isFresh = true)
    (accepts : Level.Accepts { placed with start := placed.start + offset, trimmed := trimmed' }
      levels'.1 levels'.2 ended') :
    ∃ ended, Level.Accepts placed levels.1 levels.2 ended := by
  cases continues with
  | outermost preceded =>
      have row := preceded.currentRow
      cases accepts with
      | atom kind => exact ⟨_, .atom kind⟩
      | opening kind fits => exact ⟨_, .opening kind fits⟩
      | closing _ _ _ same => cases same
      | tie kind some free =>
          dsimp only at some free
          rw [row, Row.isEmpty_shift] at some
          rw [row, Row.tied_shift] at free
          exact ⟨_, .tie kind some free⟩
      | separator kind _ free =>
          dsimp only at free
          rw [row, Row.tied_shift] at free
          exact ⟨_, .separator kind preceded.isDivisible.1 free⟩
      | blank kind _ fresh =>
          dsimp only at fresh
          rw [row, Row.isFresh_shift] at fresh
          exact ⟨_, .blank kind preceded.isDivisible.1 fresh⟩
  | @inner level level' outer outer' moved under =>
      have row := moved.currentRow
      have divisible := moved.isDivisible
      obtain ⟨length, some⟩ := under.length
      obtain rfl := trims.resolve_right fun idle => some idle.1
      cases accepts with
      | atom kind => exact ⟨_, .atom kind⟩
      | opening kind fits => exact ⟨_, .opening kind (length ▸ fits)⟩
      | closing kind free closes same =>
          dsimp only at free closes same
          subst same
          obtain ⟨next, rest, rfl⟩ := under.exists_cons
          obtain ⟨atom, closed⟩ := moved.close?_eq_some closes
          rw [row, Row.tied_shift] at free
          exact ⟨_, .closing kind free closed rfl⟩
      | tie kind some free =>
          dsimp only at some free
          rw [row, Row.isEmpty_shift] at some
          rw [row, Row.tied_shift] at free
          exact ⟨_, .tie kind some free⟩
      | separator kind divides free =>
          dsimp only at divides free
          rw [divisible] at divides
          rw [row, Row.tied_shift] at free
          exact ⟨_, .separator kind divides free⟩
      | blank kind divides fresh =>
          dsimp only at divides fresh
          rw [divisible] at divides
          rw [row, Row.isFresh_shift] at fresh
          exact ⟨_, .blank kind divides fresh⟩

/-! ### Passages -/

namespace Progress.Continues

variable {progress progress' : Progress}

theorem token_alone (continues : progress.Continues offset earlier progress') {letter : Char}
    {more after : List Char} {token : Token} {levels' : Level × List Level}
    (isToken : Scan.ofLetter letter (more ++ after) = .token token more.length)
    (accepted : progress'.level.accept (progress'.place letter token) progress'.outer =
      .ok levels') :
    ∃ levels, progress.level.accept (progress.place letter token) progress.outer = .ok levels ∧
      ((progress.passAll (letter :: more)).within levels).Continues offset earlier
        ((progress'.passAll (letter :: more)).within levels') := by
  have placed : { progress.place letter token with
      start := (progress.place letter token).start + offset, trimmed := progress'.trimmed } =
      progress'.place letter token := by
    rw [place, place, continues.position]
  have accepts' := Level.accepts_of_accept accepted
  rw [← placed] at accepts'
  obtain ⟨levels, accepts⟩ := continues.levels.accept_alone continues.trimmed accepts'
  -- What the two readings come to is known from the other direction.
  obtain ⟨levels'', accepted', further⟩ := continues.token isToken accepts.accept
  cases accepted.symm.trans accepted'
  exact ⟨levels, accepts.accept, further⟩

end Progress.Continues

/-- What is read after the first text can be read alone. -/
theorem Reads.alone {first first' last' : Progress} {letters after : List Char}
    (reads : Reads first' letters after last')
    (begins : first.Continues offset earlier first') :
    ∃ last, Reads first letters after last ∧ last.Continues offset earlier last' := by
  induction reads with
  | refl => exact ⟨first, .refl _, begins⟩
  | gap _ isGap inductionHypothesis =>
      obtain ⟨last, alone, continues⟩ := inductionHypothesis
      exact ⟨_, alone.gap isGap, continues.gap isGap⟩
  | comment _ line ends inductionHypothesis =>
      obtain ⟨last, alone, continues⟩ := inductionHypothesis
      exact ⟨_, alone.comment line ends, continues.passAll (by decide) _⟩
  | token _ noGap noComment isToken accepted inductionHypothesis =>
      obtain ⟨last, alone, continues⟩ := inductionHypothesis
      obtain ⟨levels, accepted', further⟩ := continues.token_alone isToken accepted
      exact ⟨_, alone.token noGap noComment isToken accepted', further⟩

/-- Where the reading of both texts can end, so can that of the second one. -/
theorem Progress.Continues.finish_alone {progress progress' : Progress}
    {statements : List RawStatement} (continues : progress.Continues offset earlier progress')
    (finished : progress'.finish = .ok statements) : ∃ others, progress.finish = .ok others := by
  obtain ⟨outermost, free, _⟩ := finish_eq_ok finished
  have levels := continues.levels
  obtain ⟨position, trimmed, level, outer⟩ := progress
  obtain ⟨position', trimmed', level', outer'⟩ := progress'
  dsimp only at outermost free levels
  subst outermost
  cases levels with
  | inner _ under => exact absurd (List.length_eq_zero_iff.1 under.length.1.symm) under.length.2
  | outermost preceded =>
      rw [preceded.currentRow, Row.tied_shift] at free
      obtain ⟨statements, start, row, ended⟩ := preceded.exists_finishRow trimmed
      exact ⟨_, finish_of_finishRow rfl free ended⟩

/-! ### Two texts -/

theorem rawStatements_of_append {first second : String} {statements all : List RawStatement}
    (reads : rawStatements first = .ok statements)
    (readsAll : rawStatements (first ++ "\n" ++ second) = .ok all) :
    ∃ others, rawStatements second = .ok others := by
  obtain ⟨between, _, begins, whole⟩ := exists_reads_line reads second
  rw [whole] at readsAll
  obtain ⟨final, passesRest, finished⟩ := Progress.exists_reads readsAll
  obtain ⟨last, alone, continues⟩ := passesRest.alone begins
  obtain ⟨others, ends⟩ := continues.finish_alone finished
  have same := alone.resume_eq
  rw [List.append_nil, Progress.resume_nil, ends] at same
  exact ⟨others, same⟩

theorem RawStatement.readAll_of_append {first second : List RawStatement} {all : List Statement}
    (reads : readAll (first ++ second) = .ok all) : ∃ others, readAll second = .ok others := by
  induction first generalizing all with
  | nil => exact ⟨all, reads⟩
  | cons statement first inductionHypothesis =>
      obtain ⟨_, rest, _, reads, _⟩ := readAll_cons reads
      exact inductionHypothesis reads

/-- Where the two texts are accepted together the second one is accepted alone. -/
theorem Block.parse_of_append {first second : String} {block whole : Block}
    (reads : Block.parse first = .ok block)
    (readsAll : Block.parse (first ++ "\n" ++ second) = .ok whole) :
    ∃ other, Block.parse second = .ok other := by
  obtain ⟨raw, isRaw, _⟩ := Outcome.bind_eq_ok.1 reads
  obtain ⟨rawAll, isAll, readsAll⟩ := Outcome.bind_eq_ok.1 readsAll
  obtain ⟨statements, isRead, _⟩ := Outcome.bind_eq_ok.1 readsAll
  obtain ⟨raw', isRaw'⟩ := rawStatements_of_append isRaw isAll
  cases isAll.symm.trans (rawStatements_append isRaw isRaw')
  obtain ⟨moved, isMoved⟩ := RawStatement.readAll_of_append isRead
  have alike := RawStatement.readAll_alike (byteLength first.toList + 1) raw'
  rw [RawStatement.shiftAll_eq_map, isMoved] at alike
  generalize alone : RawStatement.readAll raw' = outcome at alike
  cases alike with
  | @ok others =>
      exact ⟨.mk others, Outcome.bind_eq_ok.2 ⟨_, isRaw', Outcome.bind_eq_ok.2 ⟨_, alone, rfl⟩⟩⟩

/-- Parsing goes line by line. After a text that is accepted, and a new line, exactly the texts are
accepted that are accepted alone, and the statements of both come one after the other, those of the
second text with all their spans moved beyond the new line. -/
theorem Block.parse_append_iff {first second : String} {block : Block}
    (reads : Block.parse first = .ok block) (whole : Block) :
    Block.parse (first ++ "\n" ++ second) = .ok whole ↔
      ∃ other, Block.parse second = .ok other ∧ whole = .mk (block.statements ++
        other.statements.map (Statement.shift (byteLength first.toList + 1))) := by
  constructor
  · intro readsAll
    obtain ⟨other, readsOther⟩ := Block.parse_of_append reads readsAll
    cases readsAll.symm.trans (Block.parse_append reads readsOther)
    exact ⟨other, readsOther, rfl⟩
  · rintro ⟨other, readsOther, rfl⟩
    exact Block.parse_append reads readsOther

/-- A text that ends in a comment with an open bracket, and a second one with a bracket in a
string. -/
theorem Block.parse_append_iff_comment :
    ∃ first second block, first = "F ← \x7b𝕩 # \x7d\n\x7d # (" ∧ second = "\"⟩\"‿é" ∧
      Block.parse first = .ok block ∧
      (∀ whole, Block.parse (first ++ "\n" ++ second) = .ok whole →
        whole.statements.map Statement.span = [some ⟨0, 21⟩, some ⟨22, 32⟩]) ∧
      ∀ whole, Block.parse (first ++ "\n" ++ second) = .ok whole ↔
        ∃ other, Block.parse second = .ok other ∧ whole = .mk (block.statements ++
          other.statements.map (Statement.shift (byteLength first.toList + 1))) := by
  have computed : (parse ("F ← \x7b𝕩 # \x7d\n\x7d # (" ++ "\n" ++ "\"⟩\"‿é")).toOption.map
      (fun whole => whole.statements.map Statement.span) =
        some [some ⟨0, 21⟩, some ⟨22, 32⟩] := by decide +kernel
  have accepted : (parse "F ← \x7b𝕩 # \x7d\n\x7d # (").isOk = true := by decide +kernel
  obtain ⟨block, reads⟩ := Outcome.exists_of_isOk accepted
  obtain ⟨found, isFound, spans⟩ := Option.map_eq_some_iff.1 computed
  refine ⟨_, "\"⟩\"‿é", block, rfl, rfl, reads, fun whole parses => ?_, parse_append_iff reads⟩
  cases (Outcome.eq_ok_of_toOption isFound).symm.trans parses
  exact spans

end PointFree
