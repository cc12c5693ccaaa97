import PointFree.Proofs.Placing.Reading

/-!
Contract: how deep the brackets of a text nest.

`Enclosure` goes along the characters of a text and keeps the brackets that are open. It knows of
tokens only what hides a bracket: texts, character literals and comments. Wherever the reading of
a text comes to, the brackets open by that account are the levels that are open by its own, so the
limit on the levels bounds the brackets of every text that is read, and of a text that is refused
for its nesting it tells the bracket that was one too many.
-/

namespace PointFree

/-! ### The brackets that are open -/

/-- What the next character belongs to. -/
inductive Mode where
  | code
  /-- A character literal, of which only the quote that begins it has come. -/
  | character
  /-- A character literal that lacks only the quote that ends it. -/
  | characterEnd
  | text
  | comment

/-- The brackets that are open, the innermost first, and what the next character belongs to. -/
structure Enclosure where
  mode : Mode
  opened : List Bracket

/-- Takes away the innermost bracket, if it is of that kind. -/
def Bracket.close (bracket : Bracket) : List Bracket → List Bracket
  | [] => []
  | innermost :: others => if innermost = bracket then others else innermost :: others

namespace Enclosure

def start : Enclosure :=
  ⟨.code, []⟩

/-- After a character of the code. -/
def inCode (opened : List Bracket) (letter : Char) : Enclosure :=
  match letter with
  | '(' => ⟨.code, .paren :: opened⟩
  | '⟨' => ⟨.code, .list :: opened⟩
  | '\x7b' => ⟨.code, .block :: opened⟩
  | ')' => ⟨.code, Bracket.paren.close opened⟩
  | '⟩' => ⟨.code, Bracket.list.close opened⟩
  | '\x7d' => ⟨.code, Bracket.block.close opened⟩
  | '\'' => ⟨.character, opened⟩
  | '"' => ⟨.text, opened⟩
  | '#' => ⟨.comment, opened⟩
  | _ => ⟨.code, opened⟩

def step (enclosure : Enclosure) (letter : Char) : Enclosure :=
  match enclosure.mode with
  | .code => inCode enclosure.opened letter
  | .character => ⟨.characterEnd, enclosure.opened⟩
  | .characterEnd => ⟨.code, enclosure.opened⟩
  | .text => if letter = '"' then ⟨.code, enclosure.opened⟩ else enclosure
  | .comment => if letter = '\n' then ⟨.code, enclosure.opened⟩ else enclosure

def along (enclosure : Enclosure) (letters : List Char) : Enclosure :=
  letters.foldl step enclosure

end Enclosure

/-- The brackets that a text leaves open, those in texts, character literals and comments left
out. -/
def openBrackets (letters : List Char) : List Bracket :=
  (Enclosure.start.along letters).opened

/-- The quote sign that is written twice keeps the text open. -/
example : openBrackets "(\"\x7d\"\")\" '(' ⟨ # \x7b".toList = [.list, .paren] := by decide

/-! ### Stretches of a text -/

namespace Enclosure

variable {bound : Nat} {first middle last : Enclosure} {letters more : List Char} {letter : Char}
  {opened : List Bracket}

/-- The letters lead from the first state to the last one, and fewer brackets than the bound are
open all the way. -/
inductive Leads (bound : Nat) : Enclosure → List Char → Enclosure → Prop where
  | refl {first : Enclosure} : first.opened.length < bound → Leads bound first [] first
  | step {first last : Enclosure} {letter : Char} {letters : List Char} :
      first.opened.length < bound → Leads bound (first.step letter) letters last →
      Leads bound first (letter :: letters) last

namespace Leads

theorem last_lt (leads : Leads bound first letters last) : last.opened.length < bound := by
  induction leads with
  | refl fits => exact fits
  | step _ _ inductionHypothesis => exact inductionHypothesis

theorem trans (leads : Leads bound first letters middle) (further : Leads bound middle more last) :
    Leads bound first (letters ++ more) last := by
  induction leads with
  | refl => exact further
  | step fits _ inductionHypothesis => exact .step fits (inductionHypothesis further)

theorem along_eq (leads : Leads bound first letters last) : first.along letters = last := by
  induction leads with
  | refl => rfl
  | step _ _ inductionHypothesis => exact inductionHypothesis

theorem within (leads : Leads bound first letters last) {before after : List Char}
    (same : letters = before ++ after) : (first.along before).opened.length < bound := by
  induction leads generalizing before with
  | refl fits =>
      obtain ⟨rfl, _⟩ := List.append_eq_nil_iff.1 same.symm
      exact fits
  | step fits _ inductionHypothesis =>
      cases before with
      | nil => exact fits
      | cons letter before =>
          obtain ⟨rfl, rest⟩ := List.cons.inj same
          exact inductionHypothesis rest

end Leads

/-! ### Tokens -/

/-- The characters of the code that open or close something or hide what follows. -/
def marks : List Char :=
  bracketSigns ++ ['\'', '"', '#']

theorem inCode_of_not_mem (plain : letter ∉ marks) (opened : List Bracket) :
    inCode opened letter = ⟨.code, opened⟩ := by
  unfold inCode
  split
  all_goals first | exact absurd (by decide) plain | rfl


namespace Leads

theorem idle (fits : first.opened.length < bound)
    (same : ∀ letter ∈ letters, first.step letter = first) : Leads bound first letters first := by
  induction letters with
  | nil => exact .refl fits
  | cons letter rest inductionHypothesis =>
      obtain ⟨here, later⟩ := List.forall_mem_cons.1 same
      refine .step fits ?_
      rw [here]
      exact inductionHypothesis later

theorem plain (fits : opened.length < bound) (plain : ∀ letter ∈ letters, letter ∉ marks) :
    Leads bound ⟨.code, opened⟩ letters ⟨.code, opened⟩ :=
  .idle fits fun letter member => inCode_of_not_mem (plain letter member) opened

theorem comment (fits : opened.length < bound) (line : ∀ letter ∈ letters, letter ≠ '\n') :
    Leads bound ⟨.code, opened⟩ ('#' :: letters) ⟨.comment, opened⟩ :=
  .step fits (.idle fits fun letter member => if_neg (line letter member))

theorem text (fits : opened.length < bound) {found : List Char × Nat}
    (isText : Scan.quotedText letters = some found) :
    Leads bound ⟨.text, opened⟩ (letters.take found.2) ⟨.code, opened⟩ := by
  induction letters using Scan.quotedText.induct generalizing found with
  | case1 rest inductionHypothesis =>
      rw [Scan.quotedText] at isText
      obtain ⟨later, isLater, rfl⟩ := Option.map_eq_some_iff.1 isText
      exact .step fits (.step fits (inductionHypothesis isLater))
  | case2 rest single =>
      rw [Scan.quotedText] at isText
      · cases isText
        exact .step fits (.refl fits)
      · exact single
  | case3 letter rest _ plain inductionHypothesis =>
      rw [Scan.quotedText_of_ne plain] at isText
      obtain ⟨later, isLater, rfl⟩ := Option.map_eq_some_iff.1 isText
      refine .step fits ?_
      rw [Enclosure.step, if_neg plain]
      exact inductionHypothesis isLater
  | case4 => cases isText

end Leads

end Enclosure

/-- The brackets that are open after a token. -/
def Token.nest (token : Token) (opened : List Bracket) : List Bracket :=
  match token with
  | .opening bracket => bracket :: opened
  | .closing bracket => bracket.close opened
  | _ => opened

theorem Token.nest_of_isBracket {token : Token} (other : token.isBracket = false)
    (opened : List Bracket) : token.nest opened = opened := by
  cases token with
  | opening | closing => cases other
  | atom | tie | separator | blank => rfl

namespace Scan

open Enclosure (marks Leads)

variable {letter : Char} {rest : List Char} {token : Token} {more : Nat}

theorem not_mem_marks_of_isGap (gap : isGap letter = true) : letter ∉ marks := by
  simp only [isGap, Bool.or_eq_true, beq_iff_eq] at gap
  rcases gap with (rfl | rfl) | rfl <;> decide

theorem not_mem_marks_of_isNamePart (part : isNamePart letter = true) : letter ∉ marks := by
  intro marked
  simp only [marks, bracketSigns, List.cons_append, List.nil_append, List.mem_cons,
    List.not_mem_nil, or_false] at marked
  rcases marked with rfl | rfl | rfl | rfl | rfl | rfl | rfl | rfl | rfl <;>
    exact absurd part (by decide +kernel)

theorem not_mem_marks_of_isNumberPart (part : isNumberPart letter = true) : letter ∉ marks := by
  intro marked
  simp only [marks, bracketSigns, List.cons_append, List.nil_append, List.mem_cons,
    List.not_mem_nil, or_false] at marked
  rcases marked with rfl | rfl | rfl | rfl | rfl | rfl | rfl | rfl | rfl <;>
    exact absurd part (by decide)

/-- A token that begins with none of the marks is free of them. -/
theorem Manner.plain {scan : List Char → Scan} (manner : Manner letter scan)
    (plain : letter ∉ marks) (isToken : scan rest = .token token more) :
    ∀ part ∈ letter :: rest.take more, part ∉ marks := by
  have names (letters : List Char) : ∀ part ∈ letters.takeWhile isNamePart, part ∉ marks :=
    fun _ member => not_mem_marks_of_isNamePart (List.mem_takeWhile_imp member)
  cases manner with
  | alone known =>
      obtain ⟨rfl, _⟩ := known isToken
      exact List.forall_mem_singleton.2 plain
  | character isQuote => exact absurd (isQuote ▸ by decide) plain
  | string isQuote => exact absurd (isQuote ▸ by decide) plain
  | system =>
      unfold Scan.system at isToken
      split at isToken
      · next initial others =>
          split at isToken
          · next alphabetic =>
              cases isToken
              rw [List.take_succ_cons, take_takeWhile]
              refine List.forall_mem_cons.2 ⟨plain, List.forall_mem_cons.2 ⟨?_, names others⟩⟩
              refine not_mem_marks_of_isNamePart ?_
              rw [isNamePart, Text.isAlphanumeric, alphabetic]
              rfl
          · cases isToken
      · cases isToken
  | signed =>
      obtain ⟨_, width, _, same, _, _, parts⟩ := number_ends isToken
      obtain rfl : more = width := by omega
      exact List.forall_mem_cons.2
        ⟨plain, fun part member => not_mem_marks_of_isNumberPart (parts part member)⟩
  | unsigned =>
      obtain ⟨_, width, _, same, _, _, parts⟩ := number_ends isToken
      obtain rfl : width = more + 1 := by omega
      exact fun part member => not_mem_marks_of_isNumberPart (parts part member)
  | name =>
      cases isToken
      rw [take_takeWhile]
      exact List.forall_mem_cons.2 ⟨plain, names rest⟩

/-- A token leads from code to code, and leaves open what it says. -/
theorem leads (isToken : ofLetter letter rest = .token token more) (noComment : letter ≠ '#')
    {bound : Nat} {opened : List Bracket} (before : opened.length < bound)
    (after : (token.nest opened).length < bound) :
    Leads bound ⟨.code, opened⟩ (letter :: rest.take more) ⟨.code, token.nest opened⟩ := by
  by_cases marked : letter ∈ marks
  · obtain bracket | other := List.mem_append.1 marked
    · simp only [bracketSigns, List.mem_cons, List.not_mem_nil, or_false] at bracket
      rcases bracket with rfl | rfl | rfl | rfl | rfl | rfl <;> cases isToken <;>
        exact .step before (.refl after)
    · simp only [List.mem_cons, List.not_mem_nil, or_false] at other
      rcases other with rfl | rfl | rfl
      · obtain ⟨quoted, others, rfl, rfl, rfl⟩ := character_eq_token.1 isToken
        exact .step before (.step before (.step before (.refl before)))
      · have isString : Scan.string rest = .token token more := isToken
        unfold Scan.string at isString
        split at isString
        · next found isText =>
            cases isString
            exact .step before (.text before isText)
        · cases isString
      · exact absurd rfl noComment
  · have other : token.isBracket = false := Bool.eq_false_iff.2 fun isBracket =>
      marked (List.mem_append_left _ ((scanned isToken).brackets isBracket))
    rw [Token.nest_of_isBracket other]
    exact .plain before ((manner letter).plain marked isToken)

end Scan

/-! ### Readings -/

/-- The bracket that a level stands in. -/
def Level.bracket : Level → Bracket
  | .paren _ => .paren
  | .list _ _ => .list
  | .block _ _ _ => .block

namespace Level

@[simp] theorem bracket_ofBracket (bracket : Bracket) : (ofBracket bracket).bracket = bracket := by
  cases bracket <;> rfl

@[simp] theorem bracket_mapRow (change : Row → Row) (level : Level) :
    (level.mapRow change).bracket = level.bracket := by
  cases level <;> rfl

@[simp] theorem bracket_startAt (position : Nat) (level : Level) :
    (level.startAt position).bracket = level.bracket := by
  cases level <;> rfl

@[simp] theorem bracket_finishRow (trimmed : Nat) (level : Level) :
    (level.finishRow trimmed).bracket = level.bracket := by
  cases level with
  | paren => rfl
  | list elements row | block statements start row =>
      rw [finishRow]
      split <;> rfl

theorem bracket_of_close? {bracket : Bracket} {trimmed : Nat} {level : Level} {atom : Atom}
    (closes : level.close? bracket trimmed = some atom) : level.bracket = bracket := by
  rw [← bracket_finishRow trimmed level]
  unfold close? at closes
  split at closes
  · next same => rw [same]; rfl
  · next same => rw [same]; rfl
  · next same => rw [same]; rfl
  · cases closes

/-- The brackets of the levels, the innermost first. The outermost level is the whole text, which
stands in none. -/
def brackets (levels : Level × List Level) : List Bracket :=
  ((levels.1 :: levels.2).map bracket).dropLast

theorem length_brackets (levels : Level × List Level) :
    (brackets levels).length = levels.2.length := by
  simp [brackets]

theorem Accepts.brackets_eq {placed : Placed} {level : Level} {outer : List Level}
    {levels : Level × List Level} (accepts : Accepts placed level outer levels) :
    brackets levels = placed.token.nest (brackets (level, outer)) := by
  cases accepts with
  | atom kind | tie kind | separator kind | blank kind => simp [kind, Token.nest, brackets]
  | opening kind => simp [kind, Token.nest, brackets]
  | closing kind _ closes same =>
      subst same
      simp [kind, Token.nest, brackets, Bracket.close, bracket_of_close? closes]

/-- A token that is accepted leaves fewer brackets open than the limit. -/
theorem Accepts.length_lt {placed : Placed} {level : Level} {outer : List Level}
    {levels : Level × List Level} (accepts : Accepts placed level outer levels)
    (fits : (brackets (level, outer)).length < nestingLimit) :
    (brackets levels).length < nestingLimit := by
  rw [length_brackets] at fits ⊢
  cases accepts with
  | atom | tie | separator | blank => exact fits
  | opening _ below => exact below
  | closing _ _ _ same =>
      rw [same, List.length_cons] at fits
      exact Nat.lt_of_succ_lt fits

end Level

/-- The brackets of the levels that are open. -/
def Progress.brackets (progress : Progress) : List Bracket :=
  Level.brackets (progress.level, progress.outer)

@[simp] theorem Progress.brackets_passAll (progress : Progress) (letters : List Char) :
    (progress.passAll letters).brackets = progress.brackets := by
  rw [brackets, passAll_level, passAll_outer, brackets]

/-- The brackets of the levels are open, and if a comment has come last, it is over before anything
else is read. -/
structure Progress.Nests (progress : Progress) (after : List Char) (enclosure : Enclosure) :
    Prop where
  opened : enclosure.opened = progress.brackets
  mode : enclosure.mode = .code ∨
    enclosure.mode = .comment ∧ ∀ letter ∈ after.head?, letter = '\n'

/-- The end of a line leads back to the code, so what is read next may as well begin there. -/
theorem Progress.Nests.leads {progress : Progress} {letter : Char} {rest more : List Char}
    {enclosure last : Enclosure} {bound : Nat} (nests : progress.Nests (letter :: rest) enclosure)
    (leads : Enclosure.Leads bound ⟨.code, progress.brackets⟩ (letter :: more) last) :
    Enclosure.Leads bound enclosure (letter :: more) last := by
  obtain ⟨mode, opened⟩ := enclosure
  obtain ⟨rfl, rfl | ⟨rfl, ends⟩⟩ := nests
  · exact leads
  · obtain rfl := ends letter rfl
    cases leads with
    | step fits leads => exact .step fits leads

/-- Wherever the reading of a text comes to, its levels are the brackets that are open, and there
have been fewer than the limit all the way. -/
theorem Reads.leads {letters after : List Char} {last : Progress}
    (reads : Reads .start letters after last) :
    ∃ enclosure, Enclosure.Leads nestingLimit .start letters enclosure ∧
      last.Nests after enclosure := by
  induction reads with
  | refl => exact ⟨.start, .refl (by decide), rfl, .inl rfl⟩
  | gap _ gap inductionHypothesis =>
      obtain ⟨enclosure, leads, nests⟩ := inductionHypothesis
      have fits := nests.opened ▸ leads.last_lt
      have step := Enclosure.Leads.plain fits
        (List.forall_mem_singleton.2 (Scan.not_mem_marks_of_isGap gap))
      exact ⟨_, leads.trans (nests.leads step), rfl, .inl rfl⟩
  | comment _ line ends inductionHypothesis =>
      obtain ⟨enclosure, leads, nests⟩ := inductionHypothesis
      have fits := nests.opened ▸ leads.last_lt
      exact ⟨_, leads.trans (nests.leads (.comment fits line)),
        (Progress.brackets_passAll _ _).symm, .inr ⟨rfl, ends⟩⟩
  | @token _ more _ last _ token levels _ _ noComment isToken accepted inductionHypothesis =>
      obtain ⟨enclosure, leads, nests⟩ := inductionHypothesis
      have fits := nests.opened ▸ leads.last_lt
      have accepts := Level.accepts_of_accept accepted
      have opened : Level.brackets levels = token.nest last.brackets := accepts.brackets_eq
      have step := Scan.leads isToken noComment fits (opened ▸ accepts.length_lt fits)
      rw [List.take_left] at step
      exact ⟨_, leads.trans (nests.leads step), opened.symm, .inl rfl⟩

/-! ### Refusals -/

/-- Only a bracket beyond the limit is refused for its depth. -/
theorem Level.accept_fails_nested (placed : Placed) (level : Level) (outer : List Level) :
    (level.accept placed outer).Fails fun failure =>
      ∀ limit, failure.fault = .nestedTooDeeply limit → limit = nestingLimit ∧
        failure.span = some ⟨placed.start, placed.start + 1⟩ ∧ nestingLimit ≤ outer.length + 1 ∧
        ∃ bracket, placed.token = .opening bracket := by
  rw [accept.eq_def]
  dsimp only
  split
  · trivial
  · next bracket isToken =>
      split
      · next full =>
          rintro _ ⟨⟩
          exact ⟨rfl, rfl, full, bracket, isToken⟩
      · trivial
  · split
    · rintro _ ⟨⟩
    · split
      · trivial
      · rintro _ ⟨⟩
  · split
    · rintro _ ⟨⟩
    · trivial
  · split
    · rintro _ ⟨⟩
    · split
      · rintro _ ⟨⟩
      · trivial
  · split
    · rintro _ ⟨⟩
    · split
      · trivial
      · rintro _ ⟨⟩

theorem Progress.finish_fails (progress : Progress) : progress.finish.Fails fun failure =>
    failure.fault = .unexpectedEnd := by
  rw [finish, Level.finish.eq_def]
  split
  · rfl
  · split
    · trivial
    · rfl

/-- A bracket takes one character. -/
theorem Scan.eq_zero_of_isBracket {letter : Char} {rest : List Char} {token : Token} {more : Nat}
    (isToken : ofLetter letter rest = .token token more) (isBracket : token.isBracket = true) :
    more = 0 := by
  have sign := (scanned isToken).brackets isBracket
  simp only [bracketSigns, List.mem_cons, List.not_mem_nil, or_false] at sign
  rcases sign with rfl | rfl | rfl | rfl | rfl | rfl <;> cases isToken <;> rfl

/-- A text that is refused for its depth is refused at the bracket that is one too many. -/
theorem rawStatements_nested {source : String} {failure : Failure} {limit : Nat}
    (refused : rawStatements source = .error failure)
    (nested : failure.fault = .nestedTooDeeply limit) :
    limit = nestingLimit ∧ ∃ before letter after, source.toList = before ++ letter :: after ∧
      failure.span = some ⟨byteLength before, byteLength before + 1⟩ ∧
      (openBrackets (before ++ [letter])).length = nestingLimit := by
  obtain ⟨before, after, last, same, reads, halts⟩ := Progress.start.exists_halts source.toList
  rw [← Progress.resume_start, same, reads.resume_eq] at refused
  cases halts with
  | finished =>
      have ends := last.finish_fails
      rw [Progress.resume_nil] at refused
      rw [refused] at ends
      cases ends.symm.trans nested
  | broken noGap noComment broken =>
      obtain ⟨position, atEnd | ⟨found, here⟩⟩ := last.resume_broken noGap noComment broken
      · rw [atEnd] at refused
        cases refused
        cases nested
      · rw [here] at refused
        cases refused
        cases nested
  | @refused letter more after token first noGap noComment isToken accepted =>
      rw [last.resume_token noGap noComment isToken, accepted] at refused
      cases refused
      have fails := Level.accept_fails_nested (last.place letter token) last.level last.outer
      rw [accepted] at fails
      obtain ⟨isLimit, isPlace, full, bracket, isOpening⟩ := fails limit nested
      obtain rfl : token = .opening bracket := isOpening
      obtain rfl := List.length_eq_zero_iff.1 (Scan.eq_zero_of_isBracket isToken rfl)
      obtain ⟨enclosure, leads, nests⟩ := reads.leads
      have fits := nests.opened ▸ leads.last_lt
      have step := nests.leads (Scan.leads isToken noComment (Nat.lt_succ_of_lt fits)
        (Nat.succ_lt_succ fits))
      have opened : openBrackets (before ++ [letter]) = bracket :: last.brackets := by
        rw [openBrackets, Enclosure.along, List.foldl_append]
        exact congrArg Enclosure.opened ((congrArg (Enclosure.step · letter) leads.along_eq).trans
          step.along_eq)
      refine ⟨isLimit, before, letter, after, same, ?_, ?_⟩
      · rw [isPlace, Progress.place, reads.position_eq]
        exact congrArg some (by rw [Progress.start, Nat.zero_add])
      · rw [opened, List.length_cons]
        have levels : last.brackets.length = last.outer.length := Level.length_brackets _
        omega

/-- A source is refused where roles are assigned, or before. -/
theorem Block.parse_fails_cases (source : String) : (parse source).Fails fun failure =>
    rawStatements source = .error failure ∨ failure.fault.isOfRoles = true := by
  refine Outcome.Fails.bind ?_ fun raws _ => ?_
  · cases rawStatements source with
    | ok => trivial
    | error failure => exact .inl rfl
  · refine ((RawStatement.readAll_fails raws).imp fun failure refused => ?_).bind fun _ _ => trivial
    exact .inr refused.1

/-- The brackets of a text that is read, those in texts, character literals and comments left out,
never nest to a depth of 64. A text that is refused for its depth is refused at the bracket that
is the 64th to be open. In between, too, the reader has opened as many levels as the text has open
brackets, and never comes to 64 of them. -/
theorem Block.parse_nesting (source : String) :
    (∀ block, parse source = .ok block → ∀ before after, source.toList = before ++ after →
      (openBrackets before).length < 64) ∧
    (∀ failure limit, parse source = .error failure → failure.fault = .nestedTooDeeply limit →
      limit = 64 ∧ ∃ before letter after, source.toList = before ++ letter :: after ∧
        failure.span = some ⟨byteLength before, byteLength before + 1⟩ ∧
        (openBrackets (before ++ [letter])).length = 64) ∧
    ∀ before after progress, source.toList = before ++ after →
      Reads .start before after progress →
        progress.outer.length = (openBrackets before).length ∧ progress.outer.length < 64 := by
  refine ⟨fun block parses before after same => ?_, fun failure limit refused nested => ?_,
    fun before after progress _ reads => ?_⟩
  · obtain ⟨raws, isRaw, _⟩ := Outcome.bind_eq_ok.1 parses
    rw [← Progress.resume_start] at isRaw
    obtain ⟨last, reads, _⟩ := Progress.exists_reads isRaw
    obtain ⟨enclosure, leads, _⟩ := reads.leads
    exact leads.within same
  · have fails := parse_fails_cases source
    rw [refused] at fails
    rcases fails with isRaw | ofRoles
    · exact rawStatements_nested isRaw nested
    · rw [nested] at ofRoles
      cases ofRoles
  · obtain ⟨enclosure, leads, nests⟩ := reads.leads
    have levels := Level.length_brackets (progress.level, progress.outer)
    have fits := leads.last_lt
    rw [nests.opened, Progress.brackets, levels] at fits
    rw [openBrackets, leads.along_eq, nests.opened]
    exact ⟨levels.symm, fits⟩

/-- A text in parentheses, after a literal and a comment that hold brackets as the text does. -/
def parenthesized (depth : Nat) : String :=
  "'⟨' # (\n" ++ String.ofList
    (List.replicate depth '(' ++ ['"', '\x7b', '"'] ++ List.replicate depth ')')

/-- To a depth of 63 the text is read, and the next parenthesis is one too many. -/
theorem Block.parse_nesting_parenthesized :
    (∃ block before after last, parse (parenthesized 63) = .ok block ∧
      (parenthesized 63).toList = before ++ after ∧ Reads .start before after last ∧
      (openBrackets before).length < 64 ∧ last.outer.length < 64) ∧
    ∃ failure before letter after, parse (parenthesized 64) = .error failure ∧
      failure.fault = .nestedTooDeeply 64 ∧
      (parenthesized 64).toList = before ++ letter :: after ∧
      failure.span = some ⟨byteLength before, byteLength before + 1⟩ ∧
      (openBrackets (before ++ [letter])).length = 64 := by
  have computed : (parse (parenthesized 63)).toOption.isSome = true := by decide +kernel
  obtain ⟨block, isBlock⟩ := Option.isSome_iff_exists.1 computed
  have parses := Outcome.eq_ok_of_toOption isBlock
  obtain ⟨accepted, _, levels⟩ := parse_nesting (parenthesized 63)
  obtain ⟨before, after, last, same, reads, _⟩ :=
    Progress.start.exists_halts (parenthesized 63).toList
  have limit : (match parse (parenthesized 64) with
      | .error ⟨.nestedTooDeeply limit, _⟩ => some limit
      | _ => none) = some 64 := by decide +kernel
  split at limit
  · next limit' span refused =>
      cases limit
      obtain ⟨_, before', letter, after', same', place, full⟩ :=
        (parse_nesting (parenthesized 64)).2.1 _ 64 refused rfl
      exact ⟨⟨block, before, after, last, parses, same, reads,
          accepted block parses before after same, (levels before after last same reads).2⟩,
        _, before', letter, after', refused, rfl, same', place, full⟩
  · cases limit

end PointFree
