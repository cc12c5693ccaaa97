import Mathlib.Data.List.DropRight
import PointFree.Failure
import PointFree.Proofs.Spans.Passage

/-!
Contract: a report points at the character where its span starts.

The line is counted by the line feeds before the character and the column by the characters since
the last of them. The line that is quoted is found by another way, from line break to line break,
and without the break. Where the character is no part of a break, both come to the same: the quoted
line holds the character at the column, and the caret stands under it.
-/

namespace PointFree

/-- The characters since the last line feed. -/
def lastLine (letters : List Char) : List Char :=
  letters.rtakeWhile (· ≠ '\n')

/-- The rest of a line goes up to the next line break, which is a line feed, with a carriage return
if one stands before it, or up to the end of the text. -/
inductive RestOfLine : (rest after : List Char) → Prop where
  | ends {rest : List Char} : '\n' ∉ rest → RestOfLine rest rest
  | feeds {rest further : List Char} : '\n' ∉ rest → rest.getLast? ≠ some '\r' →
      RestOfLine rest (rest ++ '\n' :: further)
  | returns {rest further : List Char} : '\n' ∉ rest →
      RestOfLine rest (rest ++ '\r' :: '\n' :: further)

/-! ### The last line -/

section Lines

variable {before rest : List Char} {letter : Char}

theorem lastLine_of_notMem (none : '\n' ∉ before) : lastLine before = before := by
  refine List.rtakeWhile_eq_self_iff.2 fun letter member => ?_
  have other : letter ≠ '\n' := fun same => none (same ▸ member)
  simpa using other

theorem lastLine_cons (some : '\n' ∈ before) : lastLine (letter :: before) = lastLine before := by
  have shorter : (before.reverse.takeWhile (· ≠ '\n')).length ≠ before.reverse.length := by
    intro same
    have whole := (List.takeWhile_prefix (· ≠ '\n')).eq_of_length same
    rw [List.takeWhile_eq_self_iff] at whole
    simpa using whole '\n' (List.mem_reverse.2 some)
  rw [lastLine, lastLine, List.rtakeWhile, List.rtakeWhile, List.reverse_cons,
    List.takeWhile_append, if_neg shorter]

theorem lastLine_feed : lastLine ('\n' :: before) = lastLine before := by
  by_cases some : '\n' ∈ before
  · exact lastLine_cons some
  · have whole := lastLine_of_notMem some
    rw [lastLine, List.rtakeWhile, List.reverse_eq_iff] at whole
    rw [lastLine_of_notMem some, lastLine, List.rtakeWhile, List.reverse_cons,
      List.takeWhile_append, if_pos (congrArg List.length whole)]
    simp

/-! ### Lines and columns -/

/-- Behind the characters that come before, the line has grown with each line feed among them. -/
theorem lineColumnFrom_append (byte line column : Nat) :
    lineColumnFrom (byte + byteLength before) byte line column (before ++ rest) =
      (line + before.count '\n',
        if '\n' ∈ before then (lastLine before).length + 1 else column + before.length) := by
  induction before generalizing byte line column with
  | nil => cases rest <;> simp [lineColumnFrom, byteLength]
  | cons letter before inductionHypothesis =>
      have further : ¬byte + byteLength (letter :: before) ≤ byte := by
        have wide := letter.utf8Size_pos
        rw [byteLength_cons]
        omega
      rw [List.cons_append, lineColumnFrom, if_neg further, byteLength_cons, ← Nat.add_assoc,
        inductionHypothesis, inductionHypothesis]
      by_cases feed : letter = '\n'
      · subst feed
        rw [if_pos rfl, lastLine_feed, List.count_cons_self]
        by_cases some : '\n' ∈ before
        · simp [some]
          omega
        · simp [some, lastLine_of_notMem some]
          omega
      · rw [if_neg feed, List.count_cons_of_ne feed]
        by_cases some : '\n' ∈ before
        · rw [lastLine_cons some]
          simp [some]
        · simp [some, Ne.symm feed]
          omega

theorem lineAt_feed (index : Nat) : lineAt (index + 1) ('\n' :: rest) = lineAt index rest :=
  rfl

theorem lineAt_cons (other : letter ≠ '\n') (index : Nat) :
    lineAt (index + 1) (letter :: rest) = lineAt (index + 1) rest := by
  have passed : (letter :: rest).dropWhile (· ≠ '\n') = rest.dropWhile (· ≠ '\n') :=
    List.dropWhile_cons_of_pos (by simpa using other)
  unfold lineAt
  rw [passed]
  cases rest.dropWhile (· ≠ '\n') <;> rfl

/-- The line after so many line feeds begins with the last line of what comes before. -/
theorem lineAt_append : lineAt (before.count '\n') (before ++ rest) =
    lineAt 0 (lastLine before ++ rest) := by
  induction before with
  | nil => rfl
  | cons letter before inductionHypothesis =>
      by_cases feed : letter = '\n'
      · subst feed
        rw [List.count_cons_self, List.cons_append, lineAt_feed, lastLine_feed,
          inductionHypothesis]
      · rw [List.count_cons_of_ne feed]
        by_cases some : '\n' ∈ before
        · obtain ⟨index, isCount⟩ :=
            Nat.exists_eq_succ_of_ne_zero (Nat.ne_of_gt (List.count_pos_iff.2 some))
          rw [lastLine_cons some, ← inductionHypothesis, isCount, List.cons_append,
            lineAt_cons feed]
        · rw [List.count_eq_zero.2 some, lastLine_of_notMem]
          simp [some, Ne.symm feed]

theorem lineAt_zero {line : List Char} (none : '\n' ∉ line) : lineAt 0 line = line := by
  have all : ∀ letter ∈ line, decide (letter ≠ '\n') = true := fun letter member =>
    decide_eq_true fun same => none (same ▸ member)
  unfold lineAt
  rw [List.dropWhile_eq_nil_iff.2 all]
  exact List.takeWhile_eq_self_iff.2 all

theorem lineAt_zero_append {line further : List Char} (none : '\n' ∉ line) :
    lineAt 0 (line ++ '\n' :: further) = dropReturn line := by
  have all : ∀ letter ∈ line, decide (letter ≠ '\n') = true := fun letter member =>
    decide_eq_true fun same => none (same ▸ member)
  have passed : (line ++ '\n' :: further).dropWhile (· ≠ '\n') = '\n' :: further := by
    rw [List.dropWhile_append_of_pos all]
    rfl
  have taken : (line ++ '\n' :: further).takeWhile (· ≠ '\n') = line := by
    rw [List.takeWhile_append_of_pos all]
    exact List.append_nil line
  unfold lineAt
  rw [passed, taken]

/-- A line is found without its break, if what it begins with is no part of one. -/
theorem lineAt_of_restOfLine {start after : List Char} (none : '\n' ∉ start)
    (kept : start.getLast? ≠ some '\r') (isRest : RestOfLine rest after) :
    lineAt 0 (start ++ after) = start ++ rest := by
  cases isRest with
  | ends none' => exact lineAt_zero (by simp [none, none'])
  | feeds none' kept' =>
      rw [← List.append_assoc, lineAt_zero_append (by simp [none, none']), dropReturn, if_neg]
      rw [List.getLast?_append]
      cases isLast : rest.getLast? with
      | none => exact kept
      | some letter => exact fun isReturn => kept' (isLast.trans isReturn)
  | @returns further none' =>
      have split : start ++ (rest ++ '\r' :: '\n' :: further) =
          start ++ rest ++ ['\r'] ++ '\n' :: further := by simp
      rw [split, lineAt_zero_append (by simp [none, none']), dropReturn, List.getLast?_concat,
        if_pos rfl, List.dropLast_concat]

theorem exists_restOfLine (after : List Char) : ∃ rest, RestOfLine rest after := by
  by_cases some : '\n' ∈ after
  · obtain ⟨line, further, rfl, none⟩ := List.eq_append_cons_of_mem some
    by_cases isReturn : line.getLast? = .some '\r'
    · obtain ⟨rest, rfl⟩ := List.getLast?_eq_some_iff.1 isReturn
      rw [List.append_assoc]
      exact ⟨rest, .returns fun member => none (List.mem_append_left _ member)⟩
    · exact ⟨line, .feeds none isReturn⟩
  · exact ⟨after, .ends some⟩

end Lines

/-! ### Reports -/

/-- What stands before the rows of a report that show the source. -/
def margin : List Char :=
  [' ', ' ', '|', ' ']

/-- The row with the caret under the column. -/
def caretRow (column : Nat) : List Char :=
  margin ++ List.replicate (column - 1) ' ' ++ ['^']

/-- A report has its heading, the line, and the caret, on a row each. -/
theorem Span.toList_quote (span : Span) (source report : String) {line column : Nat}
    (place : span.lineColumn source = (line, column)) :
    (span.quote source report).toList =
      s!"{line}:{column}: {report}".toList ++ '\n' :: (margin ++ lineAt (line - 1) source.toList) ++
        '\n' :: caretRow column := by
  rw [quote, place]
  simp [margin, caretRow, String.toList_append, toString]

/-- Where a span starts at a character of the source, the line is counted by the line feeds before
it and the column by the characters since the last of them. If the character is no part of a line
break, a report quotes the line of the source that it stands in, which has the character at the
column, and the caret stands at the same place of the row below. -/
theorem Failure.render_points {source : String} {span : Span} {before after : List Char}
    {letter : Char} (split : source.toList = before ++ letter :: after)
    (starts : span.start = byteLength before) :
    let row := 1 + before.count '\n'
    let column := 1 + (lastLine before).length
    span.lineColumn source = (row, column) ∧
    (letter ≠ '\n' → letter ≠ '\r' → ∃ rest, RestOfLine rest after ∧
      let quoted := lastLine before ++ letter :: rest
      quoted[column - 1]? = some letter ∧
      (margin ++ quoted)[margin.length + (column - 1)]? = some letter ∧
      (caretRow column)[margin.length + (column - 1)]? = some '^' ∧
      ∀ fault : Fault, (Failure.render ⟨fault, some span⟩ source).toList =
        s!"{row}:{column}: {(Failure.ofFault fault).text}".toList ++
          '\n' :: (margin ++ quoted) ++ '\n' :: caretRow column) := by
  have place : span.lineColumn source = (1 + before.count '\n', 1 + (lastLine before).length) := by
    have counted := @lineColumnFrom_append before (letter :: after) 0 1 1
    rw [Span.lineColumn, split, starts, ← Nat.zero_add (byteLength before), counted]
    by_cases some : '\n' ∈ before
    · rw [if_pos some, Nat.add_comm _ 1]
    · rw [if_neg some, lastLine_of_notMem some]
  refine ⟨place, fun goes shows => ?_⟩
  obtain ⟨rest, isRest⟩ := exists_restOfLine after
  refine ⟨rest, isRest, ?_, ?_, ?_, fun fault => ?_⟩
  · simp
  · simp
  · simp [caretRow]
  · have none : '\n' ∉ lastLine before ++ [letter] := by
      have passed : '\n' ∉ lastLine before := fun member => by
        simpa using List.mem_rtakeWhile_imp member
      simp [passed, goes.symm]
    have line : lineAt (before.count '\n') source.toList = lastLine before ++ letter :: rest := by
      rw [split, lineAt_append, ← List.singleton_append, ← List.append_assoc,
        lineAt_of_restOfLine none (by simpa using shows) isRest, List.append_assoc,
        List.singleton_append]
    rw [Failure.render]
    dsimp only
    rw [Span.toList_quote span source _ place, Nat.add_sub_cancel_left, line]
    rfl

/-- Behind a character of two bytes, a line break of two characters, and a character of three
bytes. -/
def brokenSource : String :=
  .ofList ['é', '\r', '\n', '←', 'x', '\r', '\n']

theorem Failure.render_points_brokenSource :
    brokenSource.toList = ['é', '\r', '\n', '←'] ++ 'x' :: ['\r', '\n'] ∧
    byteLength ['é', '\r', '\n', '←'] = 7 ∧
    Span.lineColumn ⟨7, 8⟩ brokenSource = (2, 2) ∧
    ∃ rest, RestOfLine rest ['\r', '\n'] ∧ ('←' :: 'x' :: rest)[1]? = some 'x' ∧
      (Failure.render ⟨.assertionFailed, some ⟨7, 8⟩⟩ brokenSource).toList =
        "2:2: Assertion error: assertion failed".toList ++
          '\n' :: (margin ++ '←' :: 'x' :: rest) ++ '\n' :: caretRow 2 := by
  have split : brokenSource.toList = ['é', '\r', '\n', '←'] ++ 'x' :: ['\r', '\n'] :=
    String.toList_ofList
  have starts : Span.start ⟨7, 8⟩ = byteLength ['é', '\r', '\n', '←'] := by decide
  obtain ⟨place, quoted⟩ := Failure.render_points split starts
  obtain ⟨rest, isRest, stands, _, _, rows⟩ := quoted (by decide) (by decide)
  exact ⟨split, starts.symm, place, rest, isRest, stands, rows .assertionFailed⟩

end PointFree
