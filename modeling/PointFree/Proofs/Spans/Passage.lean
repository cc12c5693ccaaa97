import Mathlib.Data.List.Basic
import Mathlib.Data.List.Induction
import PointFree.Proofs.Spans.Accepting

/-!
Contract: reading a stretch of a text.

A passage leads from one state of the reading to another over a stretch of the text, with the
characters that follow it present, so that no token is cut short. It is made of blanks and
comments, which are passed over, and of tokens. Passages compose, and a text is read when a
passage leads over all of it.
-/

namespace PointFree

/-! ### Bytes -/

theorem foldl_utf8Size (letters : List Char) (before : Nat) :
    letters.foldl (fun total letter => total + letter.utf8Size) before =
      before + byteLength letters := by
  rw [byteLength]
  induction letters generalizing before with
  | nil => rfl
  | cons letter rest inductionHypothesis =>
      rw [List.foldl_cons, List.foldl_cons, inductionHypothesis, inductionHypothesis (0 + _)]
      omega

theorem byteLength_append (first second : List Char) :
    byteLength (first ++ second) = byteLength first + byteLength second := by
  rw [byteLength, List.foldl_append, foldl_utf8Size second]
  rfl

theorem byteLength_cons (letter : Char) (rest : List Char) :
    byteLength (letter :: rest) = letter.utf8Size + byteLength rest := by
  rw [byteLength, List.foldl_cons, foldl_utf8Size, Nat.zero_add]

/-! ### States -/

/-- How far a text has been read: the place, the end of the text so far without blanks at the
end, and the brackets that are open. -/
structure Progress where
  position : Nat
  trimmed : Nat
  level : Level
  outer : List Level

namespace Progress

variable (progress : Progress)

/-- Nothing has been read. -/
def start : Progress :=
  ⟨0, 0, .ofBracket .block, []⟩

/-- Beyond one character. -/
def pass (letter : Char) : Progress :=
  { progress with
    position := progress.position + letter.utf8Size
    trimmed := if Text.isBlank letter then progress.trimmed
      else progress.position + letter.utf8Size }

def passAll (letters : List Char) : Progress :=
  letters.foldl pass progress

def within (levels : Level × List Level) : Progress :=
  { progress with level := levels.1, outer := levels.2 }

/-- A token that begins where the reading is. -/
def place (letter : Char) (token : Token) : Placed :=
  ⟨token, letter, progress.position, progress.trimmed⟩

/-- The statements of a text of which these characters are left. -/
def resume (letters : List Char) : Outcome (List RawStatement) :=
  Level.acceptAll (Tokens.ofLetters 0 progress.position progress.trimmed letters)
    progress.level progress.outer

def finish : Outcome (List RawStatement) :=
  progress.level.finish progress.position progress.trimmed progress.outer

theorem resume_start (source : String) : start.resume source.toList = rawStatements source :=
  rfl

theorem resume_nil : progress.resume [] = progress.finish :=
  rfl

/-! ### Steps -/

theorem ofLetters_skip (letters after : List Char) :
    Tokens.ofLetters letters.length progress.position progress.trimmed (letters ++ after) =
      Tokens.ofLetters 0 (progress.passAll letters).position (progress.passAll letters).trimmed
        after := by
  induction letters generalizing progress with
  | nil => rfl
  | cons letter rest inductionHypothesis =>
      rw [List.cons_append, List.length_cons, Tokens.ofLetters]
      exact inductionHypothesis (progress.pass letter)

@[simp] theorem passAll_level (letters : List Char) :
    (progress.passAll letters).level = progress.level := by
  induction letters generalizing progress with
  | nil => rfl
  | cons letter rest inductionHypothesis => exact inductionHypothesis (progress.pass letter)

@[simp] theorem passAll_outer (letters : List Char) :
    (progress.passAll letters).outer = progress.outer := by
  induction letters generalizing progress with
  | nil => rfl
  | cons letter rest inductionHypothesis => exact inductionHypothesis (progress.pass letter)

theorem passAll_within (letters : List Char) :
    (progress.passAll letters).within (progress.level, progress.outer) =
      progress.passAll letters := by
  rw [within, ← passAll_level progress letters, ← passAll_outer progress letters]

theorem passAll_position (letters : List Char) :
    (progress.passAll letters).position = progress.position + byteLength letters := by
  induction letters generalizing progress with
  | nil => rfl
  | cons letter rest inductionHypothesis =>
      rw [byteLength_cons, ← Nat.add_assoc]
      exact inductionHypothesis (progress.pass letter)

theorem resume_gap {letter : Char} (gap : isGap letter = true) (after : List Char) :
    progress.resume (letter :: after) = (progress.pass letter).resume after := by
  rw [resume, Tokens.ofLetters]
  simp only [gap, if_true]
  rfl

theorem resume_comment {comment after : List Char} (line : ∀ letter ∈ comment, letter ≠ '\n')
    (ends : ∀ letter ∈ after.head?, letter = '\n') :
    progress.resume ('#' :: comment ++ after) =
      (progress.passAll ('#' :: comment)).resume after := by
  have whole : (comment ++ after).takeWhile (· ≠ '\n') = comment := by
    rw [List.takeWhile_append_of_pos (by simpa using line)]
    cases after with
    | nil => exact List.append_nil comment
    | cons letter rest =>
        rw [List.takeWhile_cons_of_neg (by simp [ends letter rfl]), List.append_nil]
  have rest := ofLetters_skip (progress.pass '#') comment after
  rw [resume, List.cons_append, Tokens.ofLetters]
  simp only [show isGap '#' = false from rfl, Bool.false_eq_true, if_false, if_true, whole]
  rw [resume, passAll_level, passAll_outer]
  exact congrArg (Level.acceptAll · progress.level progress.outer) rest

theorem resume_token {letter : Char} {more after : List Char} {token : Token}
    (noGap : isGap letter = false) (noComment : letter ≠ '#')
    (isToken : Scan.ofLetter letter (more ++ after) = .token token more.length) :
    progress.resume (letter :: more ++ after) =
      (progress.level.accept (progress.place letter token) progress.outer).bind fun levels =>
        ((progress.passAll (letter :: more)).within levels).resume after := by
  have rest := ofLetters_skip (progress.pass letter) more after
  rw [resume, List.cons_append, Tokens.ofLetters]
  simp only [noGap, Bool.false_eq_true, if_false, if_neg noComment, isToken]
  rw [Level.acceptAll]
  refine congrArg (Except.bind _) (funext fun levels => ?_)
  exact congrArg (Level.acceptAll · levels.1 levels.2) rest

end Progress

/-! ### Passages -/

/-- The rest of a line, and what is left after it. -/
theorem exists_line (letters : List Char) :
    ∃ line after, letters = line ++ after ∧ (∀ letter ∈ line, letter ≠ '\n') ∧
      ∀ letter ∈ after.head?, letter = '\n' := by
  refine ⟨letters.takeWhile (· ≠ '\n'), letters.dropWhile (· ≠ '\n'),
    List.takeWhile_append_dropWhile.symm, fun letter member => ?_, fun letter isHead => ?_⟩
  · have passes := List.mem_takeWhile_imp member
    simpa using passes
  · have fails := List.head?_dropWhile_not (· ≠ '\n') letters
    rw [isHead] at fails
    simpa using fails

/-- Reading the letters leads from the first state to the last one, when they are followed by
what comes after. -/
inductive Reads (first : Progress) : List Char → List Char → Progress → Prop where
  | refl (after : List Char) : Reads first [] after first
  | gap {letters after : List Char} {last : Progress} {letter : Char} :
      Reads first letters (letter :: after) last → isGap letter = true →
      Reads first (letters ++ [letter]) after (last.pass letter)
  | comment {letters comment after : List Char} {last : Progress} :
      Reads first letters ('#' :: comment ++ after) last →
      (∀ letter ∈ comment, letter ≠ '\n') → (∀ letter ∈ after.head?, letter = '\n') →
      Reads first (letters ++ '#' :: comment) after (last.passAll ('#' :: comment))
  | token {letters more after : List Char} {last : Progress} {letter : Char} {token : Token}
      {levels : Level × List Level} :
      Reads first letters (letter :: more ++ after) last → isGap letter = false → letter ≠ '#' →
      Scan.ofLetter letter (more ++ after) = .token token more.length →
      last.level.accept (last.place letter token) last.outer = .ok levels →
      Reads first (letters ++ letter :: more) after
        ((last.passAll (letter :: more)).within levels)

namespace Reads

variable {first middle last : Progress} {letters others after : List Char}

theorem trans (reads : Reads first letters (others ++ after) middle)
    (rest : Reads middle others after last) : Reads first (letters ++ others) after last := by
  induction rest with
  | refl => rwa [List.append_nil]
  | gap _ isGap inductionHypothesis =>
      rw [← List.append_assoc]
      refine .gap (inductionHypothesis ?_) isGap
      rwa [List.append_assoc] at reads
  | comment _ line ends inductionHypothesis =>
      rw [← List.append_assoc]
      refine .comment (inductionHypothesis ?_) line ends
      rwa [List.append_assoc] at reads
  | token _ noGap noComment isToken accepted inductionHypothesis =>
      rw [← List.append_assoc]
      refine .token (inductionHypothesis ?_) noGap noComment isToken accepted
      rwa [List.append_assoc] at reads

theorem resume_eq (reads : Reads first letters after last) :
    first.resume (letters ++ after) = last.resume after := by
  induction reads with
  | refl => rfl
  | gap _ isGap inductionHypothesis =>
      rw [List.append_assoc]
      exact inductionHypothesis.trans (Progress.resume_gap _ isGap _)
  | comment _ line ends inductionHypothesis =>
      rw [List.append_assoc]
      exact inductionHypothesis.trans (Progress.resume_comment _ line ends)
  | token _ noGap noComment isToken accepted inductionHypothesis =>
      rw [List.append_assoc]
      refine inductionHypothesis.trans ((Progress.resume_token _ noGap noComment isToken).trans ?_)
      rw [accepted]
      rfl

theorem position_eq (reads : Reads first letters after last) :
    last.position = first.position + byteLength letters := by
  induction reads with
  | refl => rfl
  | @gap _ _ last letter _ _ inductionHypothesis =>
      rw [byteLength_append, ← Nat.add_assoc, ← inductionHypothesis]
      exact last.passAll_position [letter]
  | comment _ _ _ inductionHypothesis =>
      rw [byteLength_append, ← Nat.add_assoc, ← inductionHypothesis, Progress.passAll_position]
  | token _ _ _ _ _ inductionHypothesis =>
      rw [byteLength_append, ← Nat.add_assoc, ← inductionHypothesis, Progress.within,
        Progress.passAll_position]

end Reads

/-- Where no step leads further: the text is over, no token fits, or the next one is refused. -/
inductive Progress.Halts (progress : Progress) : List Char → Prop where
  | finished : Halts progress []
  | broken {letter : Char} {rest : List Char} {offset : Nat} :
      isGap letter = false → letter ≠ '#' → Scan.ofLetter letter rest = .broken offset →
      Halts progress (letter :: rest)
  | refused {letter : Char} {more after : List Char} {token : Token} {failure : Failure} :
      isGap letter = false → letter ≠ '#' →
      Scan.ofLetter letter (more ++ after) = .token token more.length →
      progress.level.accept (progress.place letter token) progress.outer = .error failure →
      Halts progress (letter :: more ++ after)

/-- Every text is read up to a place at which the reading halts. -/
theorem Progress.exists_halts (first : Progress) (letters : List Char) :
    ∃ before after last, letters = before ++ after ∧ Reads first before after last ∧
      last.Halts after := by
  -- What one step passes over is not empty, so the induction is on how much is left.
  induction size : letters.length using Nat.strong_induction_on generalizing first letters with
  | h size inductionHypothesis =>
    subst size
    have go {chunk rest : List Char} {middle : Progress} (reads : Reads first chunk rest middle)
        (some : 0 < chunk.length) (same : letters = chunk ++ rest) :
        ∃ before after last, letters = before ++ after ∧ Reads first before after last ∧
          last.Halts after := by
      subst same
      obtain ⟨before, after, last, rfl, further, halts⟩ := inductionHypothesis rest.length
        (by rw [List.length_append]; omega) middle rest rfl
      exact ⟨chunk ++ before, after, last, (List.append_assoc ..).symm, reads.trans further, halts⟩
    cases letters with
    | nil => exact ⟨[], [], first, rfl, .refl [], .finished⟩
    | cons letter rest =>
        by_cases gap : isGap letter = true
        · have reads : Reads first [letter] rest (first.pass letter) := .gap (.refl _) gap
          exact go reads Nat.one_pos rfl
        · have noGap : isGap letter = false := Bool.eq_false_iff.2 gap
          by_cases comment : letter = '#'
          · subst comment
            obtain ⟨comment, after, rfl, line, ends⟩ := exists_line rest
            have reads : Reads first ('#' :: comment) after (first.passAll ('#' :: comment)) :=
              .comment (.refl _) line ends
            exact go reads (Nat.succ_pos _) rfl
          · cases scan : Scan.ofLetter letter rest with
            | broken offset =>
                exact ⟨[], letter :: rest, first, rfl, .refl _, .broken noGap comment scan⟩
            | token token more =>
                have fits := (Scan.scanned scan).within
                have apart := List.take_append_drop more rest
                generalize before : rest.take more = inside at apart
                generalize rest.drop more = after at apart
                have width : inside.length = more := by rw [← before, List.length_take]; omega
                subst apart width
                cases accepted : first.level.accept (first.place letter token) first.outer with
                | error failure =>
                    exact ⟨[], _, first, rfl, .refl _, .refused noGap comment scan accepted⟩
                | ok levels =>
                    have reads : Reads first (letter :: inside) after
                        ((first.passAll (letter :: inside)).within levels) :=
                      .token (.refl _) noGap comment scan accepted
                    exact go reads (Nat.succ_pos _) rfl

theorem Progress.resume_broken (progress : Progress) {letter : Char} {rest : List Char}
    {offset : Nat} (noGap : isGap letter = false) (noComment : letter ≠ '#')
    (broken : Scan.ofLetter letter rest = .broken offset) :
    ∃ position, progress.resume (letter :: rest) = unexpectedEndAt position ∨
      ∃ found, progress.resume (letter :: rest) = unexpectedAt position found := by
  rw [resume, Tokens.ofLetters]
  simp only [noGap, Bool.false_eq_true, if_false, if_neg noComment, broken]
  generalize (letter :: rest)[offset]? = found
  cases found with
  | none => exact ⟨_, .inl rfl⟩
  | some found => exact ⟨_, .inr ⟨found, rfl⟩⟩

theorem Progress.exists_reads {first : Progress} {letters : List Char}
    {statements : List RawStatement} (succeeds : first.resume letters = .ok statements) :
    ∃ last, Reads first letters [] last ∧ last.finish = .ok statements := by
  obtain ⟨before, after, last, rfl, reads, halts⟩ := first.exists_halts letters
  rw [reads.resume_eq] at succeeds
  cases halts with
  | finished => exact ⟨last, (List.append_nil before).symm ▸ reads, succeeds⟩
  | broken noGap noComment broken =>
      obtain ⟨position, atEnd | ⟨found, here⟩⟩ := last.resume_broken noGap noComment broken
      · rw [atEnd] at succeeds
        cases succeeds
      · rw [here] at succeeds
        cases succeeds
  | refused noGap noComment isToken refused =>
      rw [last.resume_token noGap noComment isToken, refused] at succeeds
      cases succeeds

/-! ### What follows a passage -/

namespace Reads

variable {first last : Progress} {letters after : List Char}

/-- What follows does not count, as long as it ends every token and every comment. -/
theorem swap (reads : Reads first letters after last) (kept : List Char) {old new : List Char}
    (same : after = kept ++ old)
    (ends : (∀ letter ∈ (kept ++ old).head?, letter = '\n') →
      ∀ letter ∈ (kept ++ new).head?, letter = '\n')
    (olds : Stops old) (news : Stops new) : Reads first letters (kept ++ new) last := by
  induction reads generalizing kept with
  | refl => exact .refl _
  | @gap _ _ _ letter _ isGap inductionHypothesis =>
      subst same
      exact .gap (inductionHypothesis (letter :: kept) rfl id) isGap
  | @comment _ comment _ _ _ line beyond inductionHypothesis =>
      subst same
      refine .comment ?_ line (ends beyond)
      have whole := inductionHypothesis ('#' :: comment ++ kept) (by simp) id
      rwa [List.append_assoc] at whole
  | @token _ more _ _ letter _ _ _ noGap noComment isToken accepted inductionHypothesis =>
      subst same
      have whole := inductionHypothesis (letter :: more ++ kept) (by simp) id
      rw [List.append_assoc] at whole
      refine .token whole noGap noComment ?_ accepted
      rw [← List.append_assoc] at isToken ⊢
      have alone := (Scan.ofLetter_append olds letter (more ++ kept)).1
        ⟨isToken, by rw [List.length_append]; exact Nat.le_add_right ..⟩
      exact ((Scan.ofLetter_append news letter (more ++ kept)).2 alone).1

end Reads

/-! ### Blanks at the end -/

theorem exists_solid (letters : List Char) :
    ∃ solid blanks, letters = solid ++ blanks ∧ Solid solid ∧
      ∀ letter ∈ blanks, Text.isBlank letter = true := by
  induction letters using List.reverseRecOn with
  | nil => exact ⟨[], [], rfl, solid_nil, nofun⟩
  | append_singleton before last inductionHypothesis =>
      by_cases blank : Text.isBlank last = true
      · obtain ⟨solid, blanks, rfl, ends, all⟩ := inductionHypothesis
        refine ⟨solid, blanks ++ [last], List.append_assoc .., ends, fun letter member => ?_⟩
        rcases List.mem_append.1 member with earlier | same
        · exact all letter earlier
        · exact List.mem_singleton.1 same ▸ blank
      · exact ⟨before ++ [last], [], (List.append_nil _).symm,
          solid_concat (Bool.eq_false_iff.2 blank), nofun⟩

namespace Progress

variable (progress : Progress)

theorem passAll_append (first second : List Char) :
    progress.passAll (first ++ second) = (progress.passAll first).passAll second :=
  List.foldl_append

theorem trimmed_passAll_blanks {letters : List Char}
    (blanks : ∀ letter ∈ letters, Text.isBlank letter = true) :
    (progress.passAll letters).trimmed = progress.trimmed := by
  induction letters generalizing progress with
  | nil => rfl
  | cons letter rest inductionHypothesis =>
      obtain ⟨here, later⟩ := List.forall_mem_cons.1 blanks
      exact (inductionHypothesis (progress.pass letter) later).trans (if_pos here)

theorem trimmed_passAll_solid {letters : List Char} (some : letters ≠ []) (solid : Solid letters) :
    (progress.passAll letters).trimmed = (progress.passAll letters).position := by
  obtain ⟨before, last, rfl⟩ := (List.eq_nil_or_concat' letters).resolve_left some
  have visible : Text.isBlank last = false := solid last (List.getLast?_concat ..)
  rw [passAll_append]
  exact if_neg (by simp [visible])

/-- Blanks at the end move the place alone. -/
theorem passAll_trimmed {solid blanks : List Char} (some : solid ≠ []) (visible : Solid solid)
    (all : ∀ letter ∈ blanks, Text.isBlank letter = true) (levels : Level × List Level) :
    (progress.passAll solid).within levels =
      ⟨(progress.passAll (solid ++ blanks)).trimmed, (progress.passAll (solid ++ blanks)).trimmed,
        levels.1, levels.2⟩ := by
  rw [passAll_append, trimmed_passAll_blanks _ all, trimmed_passAll_solid progress some visible,
    within, trimmed_passAll_solid progress some visible]

end Progress

theorem isBlank_of_isGap {letter : Char} (gap : isGap letter = true) :
    Text.isBlank letter = true := by
  simp only [isGap, Bool.or_eq_true, beq_iff_eq] at gap
  rcases gap with (rfl | rfl) | rfl <;> decide

namespace Reads

variable {first last : Progress} {letters comment more after : List Char}

/-- A comment, up to its last character that is no blank. -/
theorem cut_comment (reads : Reads first letters ('#' :: comment ++ after) last)
    (line : ∀ letter ∈ comment, letter ≠ '\n') :
    ∃ text blanks, letters ++ '#' :: comment = text ++ blanks ∧ text ≠ [] ∧ Solid text ∧
      Reads first text [] ⟨(last.passAll ('#' :: comment)).trimmed,
        (last.passAll ('#' :: comment)).trimmed, last.level, last.outer⟩ := by
  obtain ⟨solid, blanks, same, visible, all⟩ := exists_solid ('#' :: comment)
  cases solid with
  | nil =>
      have sign := all '#' (by rw [← List.nil_append blanks, ← same]; exact List.mem_cons_self)
      cases sign
  | cons sign shown =>
      obtain ⟨rfl, rfl⟩ := List.cons.inj same
      have mark : Char.IsStop '#' := by decide
      have swapped : Reads first letters ('#' :: shown ++ []) last :=
        reads.swap [] rfl id (stops_cons mark) (stops_cons mark)
      have alone := swapped.comment
        (fun letter member => line letter (List.mem_append_left _ member)) nofun
      have passed := last.passAll_trimmed (List.cons_ne_nil '#' shown) visible all
        (last.level, last.outer)
      rw [Progress.passAll_within] at passed
      refine ⟨letters ++ '#' :: shown, blanks, ?_, by simp,
        Solid.prepend visible (List.cons_ne_nil _ _) letters, passed ▸ alone⟩
      exact (List.append_assoc letters ('#' :: shown) blanks).symm

/-- A token that divides nothing has no blank at its end. -/
theorem cut_token {letter : Char} {token : Token} {levels : Level × List Level}
    (reads : Reads first letters (letter :: more ++ after) last) (stops : Stops after)
    (noGap : isGap letter = false) (noComment : letter ≠ '#')
    (isToken : Scan.ofLetter letter (more ++ after) = .token token more.length)
    (accepted : last.level.accept (last.place letter token) last.outer = .ok levels)
    (divides : token.isSolid = true) :
    Solid (letters ++ letter :: more) ∧
      Reads first (letters ++ letter :: more) [] ⟨(last.passAll (letter :: more)).trimmed,
        (last.passAll (letter :: more)).trimmed, levels.1, levels.2⟩ := by
  have scanned := Scan.scanned isToken
  have solid : Solid ([letter] ++ more) := by
    refine (solid_singleton (scanned.begins divides)).append ?_
    simpa using scanned.ends divides
  have swapped : Reads first letters (letter :: more ++ []) last :=
    reads.swap (letter :: more) rfl id stops stops_nil
  have alone := swapped.token noGap noComment
    ((Scan.ofLetter_append stops_nil letter more).2
      ((Scan.ofLetter_append stops letter more).1 ⟨isToken, Nat.le_refl _⟩)).1 accepted
  have none : ∀ letter ∈ ([] : List Char), Text.isBlank letter = true := nofun
  have passed := last.passAll_trimmed (List.cons_ne_nil letter more) solid none levels
  rw [List.append_nil] at passed
  exact ⟨Solid.prepend solid (List.cons_ne_nil _ _) letters, passed ▸ alone⟩

/-- A passage that leaves something unfinished, up to its last character that is no blank. What
was to follow is left out. -/
theorem cut (reads : Reads first letters after last) (stops : Stops after)
    (idle : first.level.currentRow.isFresh = true)
    (busy : last.level.currentRow.isFresh = false) :
    ∃ text blanks, letters = text ++ blanks ∧ text ≠ [] ∧ Solid text ∧
      Reads first text [] ⟨last.trimmed, last.trimmed, last.level, last.outer⟩ := by
  induction reads with
  | refl =>
      rw [idle] at busy
      cases busy
  | @gap letters after last letter reads isGap inductionHypothesis =>
      have blank := isBlank_of_isGap isGap
      obtain ⟨text, blanks, rfl, some, solid, alone⟩ :=
        inductionHypothesis (stops_cons (Char.isStop_of_isBlank blank)) busy
      refine ⟨text, blanks ++ [letter], List.append_assoc .., some, solid, ?_⟩
      have same : (last.pass letter).trimmed = last.trimmed := if_pos blank
      rwa [same]
  | comment reads line =>
      rw [Progress.passAll_level, Progress.passAll_outer]
      exact cut_comment reads line
  | @token letters more after last letter token levels reads noGap noComment isToken accepted =>
      cases divides : token.isSolid with
      | false =>
          have fresh : levels.1.currentRow.isFresh = true :=
            (Level.accepts_of_accept accepted).isFresh divides
          rw [Progress.within, fresh] at busy
          cases busy
      | true =>
          obtain ⟨solid, alone⟩ :=
            cut_token reads stops noGap noComment isToken accepted divides
          exact ⟨letters ++ letter :: more, [], (List.append_nil _).symm, by simp, solid, alone⟩

end Reads

end PointFree
