import PointFree.Proofs.Spans.Bodies
import PointFree.Proofs.Spans.Passage

/-!
Contract: every statement is read as it would be read on its own.

`Sited` says of the brackets that are open, somewhere in a text, that the statements in them are
faithful to the text: what was read of a statement that has begun is a passage of the statement
on its own, and the brackets that are open there are embedded in those that are open here. Each
token keeps it, and where a statement ends it gives the statement.
-/

namespace PointFree

/-! ### Faithful statements -/

/-- There is a text, and blanks stand neither before nor after it. -/
structure Trimmed (text : List Char) : Prop where
  nonempty : text ≠ []
  begins : ∀ first ∈ text.head?, Text.isBlank first = false
  ends : Solid text

namespace RawStatement

/-- The span is that of a text that reads as this one statement, up to its place. -/
def Faithful (whole : List Char) (statement : RawStatement) : Prop :=
  ∃ before text after alone, whole = before ++ text ++ after ∧ Trimmed text ∧
    statement.span = ⟨byteLength before, byteLength (before ++ text)⟩ ∧
    rawStatements (String.ofList text) = .ok [alone] ∧ alone.shift (byteLength before) = statement

/-- The statements are faithful, and each comes after those before it. -/
structure Orderly (whole : List Char) (body : List RawStatement) : Prop where
  faithful : ∀ statement ∈ body, statement.Faithful whole
  apart : body.Pairwise fun earlier later => earlier.span.stop ≤ later.span.start

theorem Orderly.nil (whole : List Char) : Orderly whole [] :=
  ⟨nofun, .nil⟩

theorem Orderly.concat {whole : List Char} {body : List RawStatement} {last : RawStatement}
    (orderly : Orderly whole body) (faithful : last.Faithful whole)
    (after : ∀ statement ∈ body, statement.span.stop ≤ last.span.start) :
    Orderly whole (body ++ [last]) := by
  constructor
  · intro statement member
    rcases List.mem_append.1 member with earlier | same
    · exact orderly.faithful statement earlier
    · exact List.mem_singleton.1 same ▸ faithful
  · refine List.pairwise_append.2 ⟨orderly.apart, List.pairwise_singleton .., ?_⟩
    intro statement member _ same
    exact List.mem_singleton.1 same ▸ after statement member

end RawStatement

/-! ### Places in two readings -/

namespace Progress

variable {progress alone : Progress} {offset : Nat}

theorem position_shift (position : progress.position = alone.position + offset)
    (letters : List Char) :
    (progress.passAll letters).position = (alone.passAll letters).position + offset := by
  rw [passAll_position, passAll_position, position]
  omega

theorem trimmed_shift (position : progress.position = alone.position + offset)
    (trimmed : progress.trimmed = alone.trimmed + offset) (letters : List Char) :
    (progress.passAll letters).trimmed = (alone.passAll letters).trimmed + offset := by
  induction letters generalizing progress alone with
  | nil => exact trimmed
  | cons letter rest inductionHypothesis =>
      have next : (progress.pass letter).position = (alone.pass letter).position + offset :=
        position_shift position [letter]
      refine inductionHypothesis next ?_
      simp only [pass]
      split
      · exact trimmed
      · exact next

theorem trimmed_pass_le (ends : progress.trimmed ≤ progress.position) (letters : List Char) :
    (progress.passAll letters).trimmed ≤ (progress.passAll letters).position := by
  induction letters generalizing progress with
  | nil => exact ends
  | cons letter rest inductionHypothesis =>
      refine inductionHypothesis (?_ : (progress.pass letter).trimmed ≤ _)
      simp only [pass]
      split
      · exact Nat.le_add_right_of_le ends
      · exact Nat.le_refl _

end Progress

theorem Reads.trimmed_le {first last : Progress} {letters after : List Char}
    (reads : Reads first letters after last) (ends : first.trimmed ≤ first.position) :
    last.trimmed ≤ last.position := by
  induction reads with
  | refl => exact ends
  | gap _ _ inductionHypothesis => exact Progress.trimmed_pass_le inductionHypothesis [_]
  | comment _ _ _ inductionHypothesis => exact Progress.trimmed_pass_le inductionHypothesis _
  | token _ _ _ _ _ inductionHypothesis =>
      exact Progress.trimmed_pass_le inductionHypothesis (_ :: _)

/-! ### Statements that have begun -/

/-- A token that comes next and is accepted. -/
structure Taken (inside after : List Char) (progress : Progress) (letter : Char) (read : Token)
    (levels : Level × List Level) : Prop where
  noGap : isGap letter = false
  noComment : letter ≠ '#'
  isToken : Scan.ofLetter letter (inside ++ after) = .token read inside.length
  accepts : Level.Accepts (progress.place letter read) progress.level progress.outer levels

theorem Taken.scanned {inside after : List Char} {progress : Progress} {letter : Char}
    {read : Token} {levels : Level × List Level}
    (taken : Taken inside after progress letter read levels) :
    Scan.Scanned letter (inside ++ after) read inside.length :=
  Scan.scanned taken.isToken

/-- A statement that begins at `start`, after others in its block and with more brackets around
it, has been read so far as it is read on its own. -/
structure Underway (done after : List Char) (progress : Progress)
    (statements : List RawStatement) (start : Nat) (more : List Level) : Prop where
  stops : ∀ statement ∈ statements, statement.span.stop ≤ start
  alone : ∃ before text alone, done = before ++ text ∧ byteLength before = start ∧
    (∀ first ∈ text.head?, Text.isBlank first = false) ∧ text ≠ [] ∧
    Reads .start text after alone ∧ progress.position = alone.position + start ∧
    progress.trimmed = alone.trimmed + start ∧
    Embedded start statements more (alone.level, alone.outer) (progress.level, progress.outer)

namespace Underway

variable {done chunk after : List Char} {progress : Progress} {statements : List RawStatement}
  {start : Nat} {more : List Level}

/-- Further reading keeps a statement underway if it can be done on its own as well. -/
theorem extend (underway : Underway done (chunk ++ after) progress statements start more)
    {levels' : Level × List Level}
    (step : ∀ {text alone}, Reads .start text (chunk ++ after) alone →
      progress.position = alone.position + start → progress.trimmed = alone.trimmed + start →
      Embedded start statements more (alone.level, alone.outer) (progress.level, progress.outer) →
      ∃ levels, Reads .start (text ++ chunk) after ((alone.passAll chunk).within levels) ∧
        Embedded start statements more levels levels') :
    Underway (done ++ chunk) after ((progress.passAll chunk).within levels') statements start
      more := by
  obtain ⟨stops, before, text, alone, rfl, here, begins, some, reads, position, trimmed,
    embedded⟩ := underway
  obtain ⟨levels, further, embedded'⟩ := step reads position trimmed embedded
  refine ⟨stops, before, text ++ chunk, _, List.append_assoc .., here, ?_, by simp [some], further,
    Progress.position_shift position chunk, Progress.trimmed_shift position trimmed chunk,
    embedded'⟩
  obtain ⟨letter, rest, rfl⟩ := List.exists_cons_of_ne_nil some
  exact begins

theorem gap {letter : Char} (underway : Underway done (letter :: after) progress statements start
    more) (gap : isGap letter = true) :
    Underway (done ++ [letter]) after (progress.pass letter) statements start more := by
  have single : Underway done ([letter] ++ after) progress statements start more := underway
  have extended := single.extend fun {_ alone} reads _ _ embedded =>
    ⟨_, (alone.passAll_within [letter]).symm ▸ reads.gap gap, embedded⟩
  rwa [Progress.passAll_within] at extended

theorem comment {comment : List Char} (underway : Underway done ('#' :: comment ++ after) progress
    statements start more) (line : ∀ letter ∈ comment, letter ≠ '\n')
    (ends : ∀ letter ∈ after.head?, letter = '\n') :
    Underway (done ++ '#' :: comment) after (progress.passAll ('#' :: comment)) statements start
      more := by
  have extended := underway.extend fun {_ alone} reads _ _ embedded =>
    ⟨_, (alone.passAll_within ('#' :: comment)).symm ▸ reads.comment line ends, embedded⟩
  rwa [Progress.passAll_within] at extended

variable {letter : Char} {inside : List Char} {read : Token} {levels' : Level × List Level}

/-- A token within the statement. -/
theorem token (underway : Underway done (letter :: inside ++ after) progress statements start more)
    (taken : Taken inside after progress letter read levels')
    (within : progress.outer = more → read.ends = false) :
    Underway (done ++ letter :: inside) after ((progress.passAll (letter :: inside)).within levels')
      statements start more := by
  refine underway.extend fun {_ alone} reads position trimmed embedded => ?_
  have placed : (alone.place letter read).shift start = progress.place letter read := by
    rw [Progress.place, Progress.place, Placed.shift, position, trimmed]
  obtain ⟨levels, accepted, embedded'⟩ :=
    embedded.next (alone.place letter read) taken.scanned.isWord within
      (placed ▸ taken.accepts)
  exact ⟨levels, reads.token taken.noGap taken.noComment taken.isToken accepted.accept, embedded'⟩

/-- The first token of a statement. -/
theorem first {stale : Nat} {row : Row} (position : progress.position = byteLength done)
    (level : progress.level = .block statements stale row) (fresh : row.isFresh = true)
    (stops : ∀ statement ∈ statements, statement.span.stop ≤ progress.position)
    (taken : Taken inside after progress letter read levels') (begins : read.begins = true) :
    Underway (done ++ letter :: inside) after ((progress.passAll (letter :: inside)).within levels')
      statements progress.position progress.outer := by
  have visible : Text.isBlank letter = false :=
    taken.scanned.begins (Token.isSolid_of_begins begins)
  have accepts := taken.accepts
  rw [level] at accepts
  obtain ⟨levels, accepted, embedded⟩ :=
    Embedded.first 0 fresh taken.scanned.isWord begins accepts
  have here : progress.position = Progress.start.position + progress.position :=
    (Nat.zero_add _).symm
  have place : (progress.pass letter).position =
      (Progress.start.pass letter).position + progress.position :=
    Progress.position_shift here [letter]
  refine ⟨stops, done, letter :: inside, _, rfl, position.symm, by simpa using visible,
    List.cons_ne_nil _ _,
    (Reads.refl _).token taken.noGap taken.noComment taken.isToken accepted.accept,
    Progress.position_shift here _, ?_, embedded⟩
  refine Progress.trimmed_shift place ?_ inside
  simp only [Progress.pass, visible, Bool.false_eq_true, if_false]
  exact place

theorem start_le (underway : Underway done after progress statements start more) :
    start ≤ progress.position := by
  obtain ⟨_, _, _, _, _, _, _, _, _, position, _⟩ := underway
  omega

/-- The end of a statement. -/
theorem faithful {row : Row} (underway : Underway done after progress statements start
    progress.outer) (level : progress.level = .block statements start row)
    (free : row.tied = false) (stops : Stops after) :
    (RawStatement.mk row.atoms ⟨start, progress.trimmed⟩).Faithful (done ++ after) := by
  obtain ⟨_, before, text, alone, rfl, rfl, begins, some, reads, _, trimmed, embedded⟩ := underway
  rw [level] at embedded
  obtain ⟨own, busy, levels, same⟩ := embedded.eq_base rfl
  obtain ⟨innermost, around⟩ := Prod.mk.inj levels
  cases same
  obtain ⟨statement, blanks, rfl, nonempty, ends, cut⟩ :=
    reads.cut stops rfl (innermost ▸ busy)
  have stop : alone.trimmed = byteLength statement :=
    cut.position_eq.trans (Nat.zero_add _)
  have finished : Progress.start.resume statement = .ok [.mk own.atoms ⟨0, alone.trimmed⟩] := by
    have resumed := cut.resume_eq
    rw [List.append_nil, innermost, around] at resumed
    refine resumed.trans ?_
    rw [Row.tied_shift] at free
    simp only [Progress.resume_nil, Progress.finish, Level.finish, Level.currentRow,
      Level.finishRow, free, busy, Bool.false_eq_true, if_false]
    rfl
  obtain ⟨letter, rest, rfl⟩ := List.exists_cons_of_ne_nil nonempty
  refine ⟨before, letter :: rest, blanks ++ after, .mk own.atoms ⟨0, alone.trimmed⟩, by simp,
    ⟨nonempty, begins, ends⟩, ?_, ?_, ?_⟩
  · rw [trimmed, byteLength_append, stop, Nat.add_comm]
    rfl
  · rw [← Progress.resume_start, String.toList_ofList]
    exact finished
  · rw [RawStatement.shift_mk, trimmed, ← Row.atoms_shift, Span.shift, Nat.zero_add]

end Underway

/-! ### Open brackets -/

/-- All statements in the open brackets are faithful to the text, and what is left of it can
only add such statements. -/
structure Sited (done after : List Char) (progress : Progress) : Prop where
  orderly : ∀ level ∈ progress.level :: progress.outer, ∀ body ∈ level.bodies,
    RawStatement.Orderly (done ++ after) body
  idle : ∀ statements start row, progress.level = .block statements start row →
    row.isFresh = true → ∀ statement ∈ statements, statement.span.stop ≤ progress.position
  busy : ∀ statements start row, progress.level = .block statements start row →
    row.isFresh = false → Underway done after progress statements start progress.outer
  beneath : ∀ inner statements start row more,
    progress.outer = inner ++ .block statements start row :: more →
      Underway done after progress statements start more

namespace Sited

variable {done after : List Char} {progress : Progress}

theorem start (letters : List Char) : Sited [] letters .start where
  orderly := by
    intro level member body inside
    obtain rfl := List.mem_singleton.1 member
    exact Level.eq_nil_of_mem_ofBracket .block inside ▸ .nil _
  idle := by
    rintro _ _ _ ⟨⟩ _
    nofun
  busy := by
    rintro _ _ _ ⟨⟩ ⟨⟩
  beneath := by
    intro inner _ _ _ _ same
    cases inner <;> cases same

/-- Reading that leaves the brackets as they are. -/
theorem pass {chunk : List Char} (sited : Sited done (chunk ++ after) progress)
    (carry : ∀ {statements start more},
      Underway done (chunk ++ after) progress statements start more →
      Underway (done ++ chunk) after (progress.passAll chunk) statements start more) :
    Sited (done ++ chunk) after (progress.passAll chunk) where
  orderly := by
    rw [progress.passAll_level, progress.passAll_outer, List.append_assoc]
    exact sited.orderly
  idle := by
    rw [progress.passAll_level, progress.passAll_position]
    intro statements start row level fresh statement member
    exact Nat.le_add_right_of_le (sited.idle statements start row level fresh statement member)
  busy := by
    rw [progress.passAll_level, progress.passAll_outer]
    exact fun statements start row level busy => carry (sited.busy statements start row level busy)
  beneath := by
    rw [progress.passAll_outer]
    exact fun inner statements start row more same =>
      carry (sited.beneath inner statements start row more same)

/-! #### Tokens -/

section Token

variable {letter : Char} {inside : List Char} {read : Token} {levels : Level × List Level}

/-- Every block around the innermost level has a statement that goes on. -/
theorem around (sited : Sited done (letter :: inside ++ after) progress)
    (taken : Taken inside after progress letter read levels) (inner : List Level)
    {more : List Level} {statements : List RawStatement} {start : Nat} {row : Row}
    (same : progress.outer = inner ++ .block statements start row :: more) :
    Underway (done ++ letter :: inside) after ((progress.passAll (letter :: inside)).within levels)
      statements start more := by
  refine (sited.beneath inner statements start row more same).token taken fun none => ?_
  have length := congrArg List.length (none.symm.trans same)
  simp only [List.length_append, List.length_cons] at length
  omega

/-- A token that a statement can begin with belongs to the current statement. -/
theorem current (sited : Sited done (letter :: inside ++ after) progress)
    (position : progress.position = byteLength done)
    (taken : Taken inside after progress letter read levels) (begins : read.begins = true)
    {statements : List RawStatement} {start : Nat} {row : Row}
    (level : progress.level.startAt progress.position = .block statements start row) :
    Underway (done ++ letter :: inside) after ((progress.passAll (letter :: inside)).within levels)
      statements start progress.outer := by
  cases here : progress.level with
  | paren => rw [here] at level; cases level
  | list => rw [here] at level; cases level
  | block before stale row' =>
      rw [here, Level.startAt] at level
      cases fresh : row'.isFresh with
      | true =>
          rw [fresh] at level
          cases level
          exact .first position here fresh (sited.idle _ _ _ here fresh) taken begins
      | false =>
          rw [fresh] at level
          cases level
          exact (sited.busy _ _ _ here fresh).token taken fun _ => Token.ends_of_begins begins

/-- Where a statement ends, the bodies it leaves are orderly. -/
theorem finished (sited : Sited done after progress)
    (free : progress.level.currentRow.tied = false)
    (stops : ∀ statements start row, progress.level = .block statements start row → Stops after) :
    ∀ body ∈ (progress.level.finishRow progress.trimmed).bodies,
      RawStatement.Orderly (done ++ after) body := by
  intro body member
  rcases Level.mem_bodies_finishRow member with inside | ⟨statements, start, row, here, busy, rfl⟩
  · exact sited.orderly _ List.mem_cons_self body inside
  · have underway := sited.busy statements start row here busy
    have earlier : RawStatement.Orderly (done ++ after) statements.reverse := by
      refine sited.orderly _ List.mem_cons_self _ ?_
      rw [here]
      exact List.mem_append_left _ List.mem_cons_self
    rw [here] at free
    have faithful := underway.faithful here free (stops _ _ _ here)
    exact earlier.concat faithful fun statement member =>
      underway.stops statement (List.mem_reverse.1 member)

theorem orderly_token (sited : Sited done (letter :: inside ++ after) progress)
    (taken : Taken inside after progress letter read levels) :
    ∀ level ∈ levels.1 :: levels.2, ∀ body ∈ level.bodies,
      RawStatement.Orderly (done ++ (letter :: inside ++ after)) body := by
  obtain ⟨here, around⟩ := List.forall_mem_cons.1 sited.orderly
  have isWord := taken.scanned.isWord
  have stops (ends : read.endsStatement = true) : Stops (letter :: inside ++ after) :=
    stops_cons (taken.scanned.stops ends)
  cases taken.accepts with
  | @atom atom kind =>
      refine List.forall_mem_cons.2 ⟨fun body member => ?_, around⟩
      rcases Level.mem_bodies_add member with new | old
      · rw [show read = .atom atom from kind] at isWord
        rw [Atom.bodies_of_isWord isWord] at new
        cases new
      · rw [Level.bodies_startAt] at old
        exact here body old
  | @opening bracket kind =>
      refine List.forall_mem_cons.2 ⟨fun body member => ?_, List.forall_mem_cons.2 ⟨?_, around⟩⟩
      · exact Level.eq_nil_of_mem_ofBracket bracket member ▸ .nil _
      · rw [Level.bodies_startAt]
        exact here
  | @closing bracket atom next rest kind free closes same =>
      rw [same] at around
      obtain ⟨beneath, further⟩ := List.forall_mem_cons.1 around
      refine List.forall_mem_cons.2 ⟨fun body member => ?_, further⟩
      rcases Level.mem_bodies_add member with new | old
      · refine sited.finished free (fun statements start row level => stops ?_) body
          (Level.mem_bodies_close? closes new)
        rw [level] at closes
        rw [show read = .closing bracket from kind, Level.eq_block_of_close? closes]
        rfl
      · exact beneath body old
  | tie =>
      refine List.forall_mem_cons.2 ⟨?_, around⟩
      rw [Level.bodies_tie]
      exact here
  | separator kind _ free =>
      refine List.forall_mem_cons.2 ⟨sited.finished free fun _ _ _ _ => stops ?_, around⟩
      rw [show read = .separator from kind]
      rfl
  | blank => exact sited.orderly

theorem idle_token (sited : Sited done (letter :: inside ++ after) progress)
    (trimmed : progress.trimmed ≤ progress.position)
    (taken : Taken inside after progress letter read levels) :
    ∀ statements start row, levels.1 = .block statements start row → row.isFresh = true →
      ∀ statement ∈ statements, statement.span.stop ≤ progress.position := by
  intro statements start row level fresh
  have current : levels.1.currentRow.isFresh = true := by rwa [level]
  cases taken.accepts with
  | atom =>
      rw [Level.currentRow_mapRow, Row.isFresh_add] at current
      cases current
  | @opening bracket =>
      cases bracket <;> cases level
      nofun
  | closing =>
      rw [Level.currentRow_mapRow, Row.isFresh_add] at current
      cases current
  | tie =>
      rw [Level.currentRow_mapRow, Row.isFresh_tie] at current
      cases current
  | separator =>
      cases here : progress.level with
      | paren => rw [here] at level; cases level
      | list =>
          simp only [here, Level.finishRow] at level
          split at level <;> cases level
      | block before stale row' =>
          simp only [here, Level.finishRow] at level
          split at level
          · next unchanged =>
              cases level
              exact sited.idle _ _ _ here unchanged
          · next busy =>
              cases level
              have underway := sited.busy _ _ _ here (Bool.eq_false_iff.2 busy)
              exact List.forall_mem_cons.2 ⟨trimmed, fun statement member =>
                (underway.stops statement member).trans underway.start_le⟩
  | blank => exact sited.idle statements start row level fresh

theorem busy_token (sited : Sited done (letter :: inside ++ after) progress)
    (position : progress.position = byteLength done)
    (taken : Taken inside after progress letter read levels) :
    ∀ statements start row, levels.1 = .block statements start row → row.isFresh = false →
      Underway (done ++ letter :: inside) after
        ((progress.passAll (letter :: inside)).within levels) statements start levels.2 := by
  intro statements start row level busy
  have accepts := taken.accepts
  cases accepts with
  | atom kind =>
      obtain ⟨row', before, _⟩ := Level.mapRow_eq_block level
      exact sited.current position taken (by rw [show read = _ from kind]; rfl) before
  | @opening bracket kind =>
      cases bracket <;> cases level
      cases busy
  | closing _ _ _ same =>
      obtain ⟨row', rfl, _⟩ := Level.mapRow_eq_block level
      exact sited.around taken [] same
  | tie kind some =>
      obtain ⟨row', before, _⟩ := Level.mapRow_eq_block level
      rw [before] at some
      have busy' : row'.isFresh = false := Bool.and_eq_false_iff.2 (.inl some)
      refine (sited.busy _ _ _ before busy').token taken fun _ => ?_
      rw [show read = .tie from kind]
      rfl
  | separator _ divides =>
      have fresh := Level.isFresh_finishRow divides progress.trimmed
      rw [show progress.level.finishRow progress.trimmed = _ from level] at fresh
      cases busy.symm.trans fresh
  | blank _ _ fresh =>
      rw [show progress.level = _ from level] at fresh
      cases busy.symm.trans fresh

theorem beneath_token (sited : Sited done (letter :: inside ++ after) progress)
    (position : progress.position = byteLength done)
    (taken : Taken inside after progress letter read levels) :
    ∀ inner statements start row more, levels.2 = inner ++ .block statements start row :: more →
      Underway (done ++ letter :: inside) after
        ((progress.passAll (letter :: inside)).within levels) statements start more := by
  intro inner statements start row more same
  have accepts := taken.accepts
  cases accepts with
  | atom => exact sited.around taken inner same
  | @opening bracket kind =>
      cases inner with
      | nil =>
          obtain ⟨level, rfl⟩ := List.cons.inj same
          exact sited.current position taken (by rw [show read = _ from kind]; rfl) level
      | cons => exact sited.around taken _ (List.cons.inj same).2
  | @closing bracket atom next rest kind free closes outer =>
      exact sited.around taken (next :: inner) (outer.trans (congrArg (next :: ·) same))
  | tie => exact sited.around taken inner same
  | separator => exact sited.around taken inner same
  | blank => exact sited.around taken inner same

end Token

end Sited

theorem Reads.sited {done after : List Char} {progress : Progress}
    (reads : Reads .start done after progress) : Sited done after progress := by
  induction reads with
  | refl letters => exact .start letters
  | gap _ gap inductionHypothesis =>
      exact Sited.pass inductionHypothesis fun underway => underway.gap gap
  | comment _ line ends inductionHypothesis =>
      exact inductionHypothesis.pass fun underway => underway.comment line ends
  | token reads noGap noComment isToken accepted inductionHypothesis =>
      have taken : Taken _ _ _ _ _ _ :=
        ⟨noGap, noComment, isToken, Level.accepts_of_accept accepted⟩
      have position := reads.position_eq.trans (Nat.zero_add _)
      have trimmed := reads.trimmed_le (Nat.le_refl _)
      refine ⟨?_, fun statements start row level fresh statement member => ?_,
        inductionHypothesis.busy_token position taken,
        inductionHypothesis.beneath_token position taken⟩
      · rw [List.append_assoc]
        exact inductionHypothesis.orderly_token taken
      · rw [Progress.within, Progress.passAll_position]
        exact Nat.le_add_right_of_le
          (inductionHypothesis.idle_token trimmed taken statements start row level fresh statement
            member)

/-- All statements of a text, those in function literals included, are faithful to it. -/
theorem orderly_of_rawStatements {source : String} {statements : List RawStatement}
    (reads : rawStatements source = .ok statements) :
    ∀ body ∈ RawStatement.bodiesWithin statements, RawStatement.Orderly source.toList body := by
  obtain ⟨last, passage, finished⟩ := Progress.exists_reads (Progress.resume_start source ▸ reads)
  have sited := passage.sited
  unfold Progress.finish Level.finish at finished
  split at finished
  · cases finished
  · next free =>
      have orderly := sited.finished (Bool.eq_false_iff.2 free) fun _ _ _ _ => stops_nil
      rw [List.append_nil] at orderly
      generalize last.level.finishRow last.trimmed = ended at finished orderly
      split at finished
      · cases finished
        exact fun body member => orderly body (List.mem_append_left _ member)
      · cases finished

end PointFree
