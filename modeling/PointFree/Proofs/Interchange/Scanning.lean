import Mathlib.Data.List.TakeWhile
import PointFree.Json.Token

/-!
Contract: the parts of a written document are tokens.

A string is read as the text it was written from, whatever characters are in it, and so is a
natural number that is a word. What follows a number makes no difference if it is what the
layout puts there, a comma or the end of a line.
-/

namespace PointFree.Json

/-! ### Strings -/

/-- How a character is written: as itself, with a short escape, or with its code. -/
inductive Written (letter : Char) : List Char → Prop where
  | raw : ¬letter.toNat < 0x20 → letter ≠ '"' → letter ≠ '\\' → Written letter [letter]
  | short {mark : Char} : shortEscape? mark = some letter → Written letter ['\\', mark]
  | code {first second third fourth : Char} :
      codeUnit? first second third fourth = some letter.toNat → letter.toNat < 0x20 →
      Written letter ['\\', 'u', first, second, third, fourth]

/-- The letters are an escape of the character. -/
def isEscape (letter : Char) : List Char → Bool
  | ['\\', mark] => shortEscape? mark == some letter
  | ['\\', 'u', first, second, third, fourth] =>
      codeUnit? first second third fourth == some letter.toNat && letter.toNat < 0x20
  | _ => false

theorem written_of_isEscape {letter : Char} {letters : List Char}
    (escape : isEscape letter letters = true) : Written letter letters := by
  unfold isEscape at escape
  split at escape
  · exact .short (beq_iff_eq.1 escape)
  · rw [Bool.and_eq_true] at escape
    exact .code (beq_iff_eq.1 escape.1) (of_decide_eq_true escape.2)
  · cases escape

/-- The characters that are never written as themselves. -/
def escapedLetters : List Char :=
  ['"', '\\'] ++ (List.range 0x20).map Char.ofNat

theorem mem_escapedLetters {letter : Char} (control : letter.toNat < 0x20) :
    letter ∈ escapedLetters := by
  refine List.mem_append_right _ (List.mem_map.2 ⟨letter.toNat, List.mem_range.2 control, ?_⟩)
  exact Char.ofNat_toNat letter

theorem escapedLetter_of_not_mem {letter : Char} (plain : letter ∉ escapedLetters) :
    escapedLetter letter = String.singleton letter := by
  unfold escapedLetter
  split
  all_goals first
    | exact absurd (by decide) plain
    | exact if_neg fun control => plain (mem_escapedLetters control)

theorem written_escapedLetter (letter : Char) : Written letter (escapedLetter letter).toList := by
  by_cases escaped : letter ∈ escapedLetters
  · have all : escapedLetters.all (fun letter => isEscape letter (escapedLetter letter).toList) =
        true := by decide +kernel
    exact written_of_isEscape (List.all_eq_true.1 all letter escaped)
  · rw [escapedLetter_of_not_mem escaped, String.toList_singleton]
    refine .raw (fun control => escaped (mem_escapedLetters control)) ?_ ?_
    · rintro rfl
      exact escaped (by decide)
    · rintro rfl
      exact escaped (by decide)

theorem pieces_written {letter : Char} {letters : List Char} (written : Written letter letters)
    (rest : List Char) :
    pieces (letters ++ rest) =
      (pieces rest).map fun found => (.letter letter :: found.1, found.2 + letters.length) := by
  cases written with
  | raw control quote backslash =>
      rw [List.singleton_append, pieces]
      · rw [if_neg (not_or.2 ⟨control, backslash⟩)]
        cases pieces rest <;> rfl
      · exact quote
      · rintro _ _ _ _ _ rfl
        exact absurd rfl backslash
      · rintro _ _ rfl
        exact absurd rfl backslash
  | @short mark isMark =>
      show pieces ('\\' :: mark :: rest) = _
      rw [pieces, isMark]
      · cases pieces rest <;> rfl
      · rintro _ _ _ _ _ rfl
        cases isMark
  | @code first second third fourth isUnit control =>
      show pieces ('\\' :: 'u' :: first :: second :: third :: fourth :: rest) = _
      have whole : pieceOfUnit letter.toNat = .letter letter := by
        rw [pieceOfUnit, if_neg (by omega), Char.ofNat_toNat]
      rw [pieces, isUnit, ← whole]
      cases pieces rest <;> rfl

/-- The text between quotes. -/
def escaped (letters : List Char) : List Char :=
  letters.flatMap fun letter => (escapedLetter letter).toList

theorem pieces_escaped (letters rest : List Char) :
    pieces (escaped letters ++ rest) =
      (pieces rest).map fun found =>
        (letters.map Piece.letter ++ found.1, found.2 + (escaped letters).length) := by
  induction letters with
  | nil => exact Option.map_id'.symm
  | cons letter letters inductionHypothesis =>
      rw [escaped, List.flatMap_cons, List.append_assoc,
        pieces_written (written_escapedLetter letter)]
      rw [escaped] at inductionHypothesis
      rw [inductionHypothesis, Option.map_map]
      refine congrArg (Option.map · _) (funext fun found => ?_)
      simp only [Function.comp_apply, List.length_append, List.map_cons, List.cons_append]
      rw [Nat.add_assoc, Nat.add_comm (List.length _)]

theorem joinPieces_letters (letters : List Char) :
    joinPieces (letters.map Piece.letter) = some letters := by
  induction letters with
  | nil => rfl
  | cons letter letters inductionHypothesis =>
      rw [List.map_cons, joinPieces, inductionHypothesis]
      rfl

theorem toList_quoted (text : String) :
    (quoted text).toList = '"' :: (escaped text.toList ++ ['"']) := by
  rw [quoted, String.toList_append, String.toList_append, String.toList_join, List.flatMap_map]
  rfl

theorem scan_quoted (text : String) (after : List Char) :
    scan ((quoted text).toList ++ after) =
      some (.string text, (quoted text).toList.length) := by
  have reads := pieces_escaped text.toList ('"' :: after)
  rw [pieces] at reads
  rw [toList_quoted, List.cons_append, List.append_assoc]
  show (scanString (escaped text.toList ++ '"' :: after)).map _ = _
  rw [scanString, reads]
  simp [joinPieces_letters, Nat.add_comm]

/-! ### Numbers -/

/-- What follows ends a number: a comma, the end of a line, or the end of the text. -/
def Ends (after : List Char) : Prop :=
  ∀ letter ∈ after.head?, letter = ',' ∨ letter = '\n'

theorem ends_nil : Ends [] :=
  nofun

theorem ends_comma (rest : List Char) : Ends (',' :: rest) := by
  rintro _ ⟨⟩
  exact .inl rfl

theorem ends_line (rest : List Char) : Ends ('\n' :: rest) := by
  rintro _ ⟨⟩
  exact .inr rfl

section Numbers

variable {after : List Char}

theorem Ends.takeWhile_append (ends : Ends after) (letters : List Char) :
    (letters ++ after).takeWhile isDigit = letters.takeWhile isDigit := by
  induction letters with
  | nil =>
      cases after with
      | nil => rfl
      | cons letter rest =>
          refine List.takeWhile_cons_of_neg ?_
          rcases ends letter rfl with rfl | rfl <;> decide
  | cons letter letters inductionHypothesis =>
      rw [List.cons_append, List.takeWhile_cons, List.takeWhile_cons, inductionHypothesis]

theorem Ends.wholePart_append (ends : Ends after) (letters : List Char) :
    wholePart (letters ++ after) = wholePart letters := by
  have digits := ends.takeWhile_append letters
  cases letters with
  | nil =>
      cases after with
      | nil => rfl
      | cons letter rest => rcases ends letter rfl with rfl | rfl <;> rfl
  | cons letter letters =>
      by_cases zero : letter = '0'
      · subst zero
        rfl
      · rw [List.cons_append, wholePart, wholePart]
        · exact digits
        · rintro _ ⟨⟩
          exact zero rfl
        · rintro _ ⟨⟩
          exact zero rfl

theorem Ends.fractionPart_append (ends : Ends after) (letters : List Char) :
    fractionPart (letters ++ after) = fractionPart letters := by
  cases letters with
  | nil =>
      cases after with
      | nil => rfl
      | cons letter rest => rcases ends letter rfl with rfl | rfl <;> rfl
  | cons letter letters =>
      by_cases point : letter = '.'
      · subst point
        exact ends.takeWhile_append letters
      · rw [List.cons_append, fractionPart, fractionPart]
        · rintro _ ⟨⟩
          exact point rfl
        · rintro _ ⟨⟩
          exact point rfl

theorem exponentSign_cons (letter : Char) (first second : List Char) :
    exponentSign (letter :: first) = exponentSign (letter :: second) := by
  by_cases minus : letter = '-'
  · subst minus
    rfl
  · by_cases plus : letter = '+'
    · subst plus
      rfl
    · rw [exponentSign, exponentSign]
      all_goals
        rintro _ ⟨⟩
        contradiction

theorem Ends.exponentSign_append (ends : Ends after) (letters : List Char) :
    exponentSign (letters ++ after) = exponentSign letters := by
  cases letters with
  | nil =>
      cases after with
      | nil => rfl
      | cons letter rest => rcases ends letter rfl with rfl | rfl <;> rfl
  | cons letter letters => exact exponentSign_cons letter _ _

theorem exponentSign_le (letters : List Char) : (exponentSign letters).2 ≤ letters.length := by
  unfold exponentSign
  split
  · exact Nat.succ_pos _
  · exact Nat.succ_pos _
  · exact Nat.zero_le _

theorem Ends.exponentPart_append (ends : Ends after) (letters : List Char) :
    exponentPart (letters ++ after) = exponentPart letters := by
  cases letters with
  | nil =>
      cases after with
      | nil => rfl
      | cons letter rest => rcases ends letter rfl with rfl | rfl <;> rfl
  | cons letter letters =>
      have sign := exponentSign_le letters
      rw [List.cons_append, exponentPart, exponentPart, ends.exponentSign_append]
      dsimp only
      rw [List.drop_append_of_le_length sign, ends.takeWhile_append]

theorem wholePart_le (letters : List Char) : (wholePart letters).length ≤ letters.length := by
  unfold wholePart
  split
  · exact Nat.succ_pos _
  · exact (List.takeWhile_prefix _).length_le

theorem fractionPart_le (letters : List Char) :
    (if (fractionPart letters).isEmpty then 0 else (fractionPart letters).length + 1) ≤
      letters.length := by
  unfold fractionPart
  split
  · next rest =>
      have short := (List.takeWhile_prefix isDigit (l := rest)).length_le
      split
      · exact Nat.zero_le _
      · exact Nat.succ_le_succ short
  · exact Nat.zero_le _

/-- What follows a number does not count. -/
theorem Ends.scanNumber_append (ends : Ends after) (letters : List Char) :
    scanNumber (letters ++ after) = scanNumber letters := by
  have head : (letters ++ after).head? = some '-' ↔ letters.head? = some '-' := by
    cases letters with
    | nil =>
        cases after with
        | nil => exact Iff.rfl
        | cons letter rest => rcases ends letter rfl with rfl | rfl <;> simp
    | cons => exact Iff.rfl
  unfold scanNumber
  simp only [head]
  have fits : (if decide (letters.head? = some '-') = true then 1 else 0) ≤ letters.length := by
    cases letters with
    | nil => simp
    | cons => split <;> simp
  generalize (if decide (letters.head? = some '-') = true then 1 else 0) = sign at *
  have whole := wholePart_le (letters.drop sign)
  have fraction := fractionPart_le (letters.drop (sign + (wholePart (letters.drop sign)).length))
  rw [List.length_drop] at whole
  rw [List.drop_append_of_le_length fits, ends.wholePart_append,
    List.drop_append_of_le_length (by omega), ends.fractionPart_append,
    List.drop_append_of_le_length fraction, ends.exponentPart_append]

/-- No other token begins as a number does. -/
theorem scan_of_scanNumber {letters : List Char} {result : Token × Nat}
    (found : scanNumber letters = some result) : scan letters = some result := by
  unfold scan
  split
  all_goals first
    | exact found
    | cases found

theorem isDigit_of_mem_toDigits {natural : Nat} {letter : Char}
    (member : letter ∈ Nat.toDigits 10 natural) : isDigit letter = true := by
  have digit := Nat.isDigit_of_mem_toDigits (by decide) (by decide) member
  simpa [isDigit, Char.isDigit, Char.le_def] using digit

theorem head?_toDigits {natural : Nat} (positive : 0 < natural) :
    (Nat.toDigits 10 natural).head? ≠ some '0' := by
  induction natural using Nat.strongRecOn with
  | ind natural inductionHypothesis =>
    by_cases short : natural < 10
    · have single : ∀ digit < 10, 0 < digit → [Nat.digitChar digit].head? ≠ some '0' := by decide
      rw [Nat.toDigits_of_lt_base short]
      exact single natural short positive
    · rw [Nat.toDigits_of_base_le (by decide) (Nat.le_of_not_lt short), List.head?_append]
      intro isHead
      rcases Option.or_eq_some_iff.1 isHead with first | ⟨none, _⟩
      · exact inductionHypothesis (natural / 10) (by omega) (by omega) first
      · exact Nat.toDigits_ne_nil (List.head?_eq_none_iff.1 none)

theorem wholePart_toDigits (natural : Nat) :
    wholePart (Nat.toDigits 10 natural) = Nat.toDigits 10 natural := by
  by_cases zero : natural = 0
  · subst zero
    rfl
  · have all : ∀ letter ∈ Nat.toDigits 10 natural, isDigit letter = true :=
      fun _ => isDigit_of_mem_toDigits
    have head := head?_toDigits (Nat.pos_of_ne_zero zero)
    generalize Nat.toDigits 10 natural = digits at *
    rw [wholePart]
    · exact List.takeWhile_eq_self_iff.2 all
    · rintro _ rfl
      exact head rfl

theorem le_ofDigitChars (total : Nat) (digits : List Char) :
    total ≤ Nat.ofDigitChars 10 digits total := by
  induction digits generalizing total with
  | nil => exact Nat.le_refl total
  | cons digit digits inductionHypothesis =>
      exact Nat.le_trans (by omega) (inductionHypothesis (10 * total + (digit.toNat - '0'.toNat)))

theorem gather_eq {total : Nat} {digits : List Char}
    (word : Nat.ofDigitChars 10 digits total ≤ Decimal.wordMax) :
    Decimal.gather total digits = (Nat.ofDigitChars 10 digits total, []) := by
  induction digits generalizing total with
  | nil => rfl
  | cons digit digits inductionHypothesis =>
      rw [Decimal.gather, Nat.mul_comm total,
        if_pos (Nat.le_trans (le_ofDigitChars _ digits) word)]
      exact inductionHypothesis word

theorem scanNumber_toDigits {natural : Nat} (word : natural ≤ Decimal.wordMax) :
    scanNumber (Nat.toDigits 10 natural) =
      some (.value (ofNat natural), (Nat.toDigits 10 natural).length) := by
  have value : Nat.ofDigitChars 10 (Nat.toDigits 10 natural) 0 = natural :=
    Nat.ofDigitChars_toDigits (by decide) (by decide)
  have gathered : Decimal.gather 0 (Nat.toDigits 10 natural) = (natural, []) := by
    rw [gather_eq (value.symm ▸ word), value]
  have unsigned : (Nat.toDigits 10 natural).head? ≠ some '-' := by
    intro isHead
    have digit := isDigit_of_mem_toDigits (List.mem_of_mem_head? isHead)
    cases digit
  unfold scanNumber
  simp only [unsigned, decide_false, Bool.false_eq_true, if_false, List.drop_zero,
    wholePart_toDigits, Nat.zero_add, List.drop_length]
  simp [Nat.toDigits_ne_nil, fractionPart, exponentPart, Decimal.Numeral.scaled, gathered,
    Decimal.signed, ofNat]

end Numbers

end PointFree.Json
