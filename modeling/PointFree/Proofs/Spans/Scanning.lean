import Mathlib.Data.List.TakeWhile
import PointFree.Surface.Token

/-!
Contract: how far a token looks.

A token is told by its own characters and by the one after them, and that one only has to be
no part of a number or name and no quote. Blanks, separators, the brace that closes a block and
the sign of a comment are such characters, and so is the end of the text: which of them follows
makes no difference to the tokens before. No token but a separator begins or ends with a blank.
-/

namespace PointFree

/-! ### Characters that end every token -/

namespace Text

/-- The members of the ranges. -/
def members (ranges : List Range) : List Nat :=
  ranges.flatMap fun range => List.range' range.1 (range.2 + 1 - range.1)

theorem inRanges_iff {ranges : List Range} {code : Nat} :
    inRanges ranges code = true ↔ ∃ range ∈ ranges, range.1 ≤ code ∧ code ≤ range.2 := by
  simp [inRanges, Range.holds]

theorem mem_members_iff {ranges : List Range} {code : Nat} :
    code ∈ members ranges ↔ inRanges ranges code = true := by
  rw [inRanges_iff, members, List.mem_flatMap]
  refine exists_congr fun range => and_congr_right fun _ => ?_
  rw [List.mem_range'_1]
  omega

/-- Goes along ranges that rise from the least code point on. The others that end before a range
are passed; those that are left have to begin after it. -/
def areApart (least : Nat) (others : List Range) : List Range → Bool
  | [] => true
  | range :: ranges =>
      let left := others.dropWhile fun other => other.2 < range.1
      least ≤ range.1 && left.all (fun other => range.2 < other.1) && areApart range.1 left ranges

theorem apart_of_areApart {least : Nat} {others ranges : List Range}
    (apart : areApart least others ranges = true) :
    (∀ range ∈ ranges, least ≤ range.1) ∧
      ∀ other ∈ others, ∀ range ∈ ranges, other.2 < range.1 ∨ range.2 < other.1 := by
  induction ranges generalizing least others with
  | nil => exact ⟨nofun, fun _ _ => nofun⟩
  | cons range ranges inductionHypothesis =>
      simp only [areApart, Bool.and_eq_true, decide_eq_true_eq, List.all_eq_true] at apart
      obtain ⟨⟨rises, beyond⟩, later⟩ := apart
      obtain ⟨rise, kept⟩ := inductionHypothesis later
      refine ⟨List.forall_mem_cons.2 ⟨rises, fun next isNext => rises.trans (rise next isNext)⟩,
        fun other isOther => ?_⟩
      have whole :=
        List.takeWhile_append_dropWhile (p := fun other => other.2 < range.1) (l := others)
      rw [← whole] at isOther
      obtain isPassed | isLeft := List.mem_append.1 isOther
      · have ended : other.2 < range.1 := by simpa using List.mem_takeWhile_imp isPassed
        exact List.forall_mem_cons.2
          ⟨.inl ended, fun next isNext => .inl (ended.trans_le (rise next isNext))⟩
      · exact List.forall_mem_cons.2 ⟨.inr (beyond other isLeft), kept other isLeft⟩

theorem inRanges_eq_false {others ranges : List Range} (apart : areApart 0 others ranges = true)
    {code : Nat} (inside : inRanges others code = true) : inRanges ranges code = false := by
  rw [← Bool.not_eq_true, inRanges_iff]
  rintro ⟨range, isRange, holds⟩
  obtain ⟨other, isOther, holds'⟩ := inRanges_iff.1 inside
  have := (apart_of_areApart apart).2 other isOther range isRange
  omega

end Text

/-- The code points of blanks and of the characters that end a statement. -/
def stopCodes : List Nat :=
  Text.members Text.blankRanges ++ ['#', ',', '\x7d', '⋄', '◊'].map Char.toNat

/-- No number or name goes on with the character, and it is no quote. -/
def Char.IsStop (letter : Char) : Prop :=
  letter.toNat ∈ stopCodes

instance (letter : Char) : Decidable (Char.IsStop letter) :=
  inferInstanceAs (Decidable (letter.toNat ∈ stopCodes))

/-- The characters that end a statement as ranges, which rise. -/
def signRanges : List Text.Range :=
  ['#', ',', '\x7d', '⋄', '◊'].map fun sign => (sign.toNat, sign.toNat)

/-- The text is over or goes on with a character that ends every token. -/
def Stops (after : List Char) : Prop :=
  ∀ letter ∈ after.head?, Char.IsStop letter

theorem stops_nil : Stops [] :=
  nofun

theorem stops_cons {letter : Char} {rest : List Char} (stop : Char.IsStop letter) :
    Stops (letter :: rest) := by
  rintro _ ⟨⟩
  exact stop

theorem Char.isStop_of_isBlank {letter : Char} (blank : Text.isBlank letter = true) :
    Char.IsStop letter :=
  List.mem_append_left _ (Text.mem_members_iff.2 blank)

namespace Char.IsStop

variable {letter : Char}

/-- What can be checked of each of the characters holds of all. -/
theorem all (stop : Char.IsStop letter) (test : Char → Bool)
    (passes : stopCodes.all (fun code => test (Char.ofNat code)) = true) : test letter = true := by
  have passed := List.all_eq_true.1 passes _ stop
  rwa [Char.ofNat_toNat] at passed

theorem isDigit_eq (stop : Char.IsStop letter) : Scan.isDigit letter = false := by
  simpa using stop.all (fun letter => !Scan.isDigit letter) (by decide)

/-- The character is none that numbers and quotes are told by, and no part of a name by itself. -/
theorem not_mem (stop : Char.IsStop letter) :
    letter ∉ ['.', 'e', 'E', '¯', '∞', 'π', '"', '\'', '_'] := by
  simpa using stop.all (fun letter => letter ∉ ['.', 'e', 'E', '¯', '∞', 'π', '"', '\'', '_'])
    (by decide)

theorem not_inRanges (stop : Char.IsStop letter) {ranges : List Text.Range}
    (blanks : Text.areApart 0 Text.blankRanges ranges = true)
    (signs : Text.areApart 0 signRanges ranges = true) :
    Text.inRanges ranges letter.toNat = false := by
  obtain isBlank | isSign := List.mem_append.1 stop
  · exact Text.inRanges_eq_false blanks (Text.mem_members_iff.1 isBlank)
  · obtain ⟨sign, isSign, same⟩ := List.mem_map.1 isSign
    exact Text.inRanges_eq_false signs
      (Text.inRanges_iff.2 ⟨_, List.mem_map_of_mem isSign, same.le, same.ge⟩)

theorem isNamePart_eq (stop : Char.IsStop letter) : Scan.isNamePart letter = false := by
  rw [Scan.isNamePart, Text.isAlphanumeric, Text.isAlphabetic,
    stop.not_inRanges (by decide +kernel) (by decide +kernel),
    stop.not_inRanges (by decide +kernel) (by decide +kernel)]
  have unmarked := stop.not_mem
  simp only [List.mem_cons, not_or] at unmarked
  simp [unmarked]

end Char.IsStop

theorem Text.isBlank_of_isNamePart {letter : Char} (part : Scan.isNamePart letter = true) :
    isBlank letter = false := by
  rw [← Bool.not_eq_true]
  intro blank
  rw [(Char.isStop_of_isBlank blank).isNamePart_eq] at part
  cases part

theorem Text.isBlank_of_isDigit {letter : Char} (digit : Scan.isDigit letter = true) :
    isBlank letter = false := by
  rw [← Bool.not_eq_true]
  intro blank
  rw [(Char.isStop_of_isBlank blank).isDigit_eq] at digit
  cases digit

theorem Text.isBlank_of_isAlphabetic {letter : Char} (alphabetic : isAlphabetic letter = true) :
    isBlank letter = false := by
  refine isBlank_of_isNamePart ?_
  rw [Scan.isNamePart, isAlphanumeric, alphabetic]
  rfl

/-! ### Parts of tokens -/

theorem Stops.takeWhile_append {after : List Char} (stops : Stops after) {test : Char → Bool}
    (fails : ∀ letter, Char.IsStop letter → test letter = false) (letters : List Char) :
    (letters ++ after).takeWhile test = letters.takeWhile test := by
  induction letters with
  | nil =>
      cases after with
      | nil => rfl
      | cons letter rest =>
          exact List.takeWhile_cons_of_neg (by simp [fails letter (stops letter rfl)])
  | cons letter rest inductionHypothesis =>
      rw [List.cons_append, List.takeWhile_cons, List.takeWhile_cons, inductionHypothesis]

namespace Scan

theorem fraction_of_ne {letter : Char} (other : letter ≠ '.') (rest : List Char) :
    fraction (letter :: rest) = [] := by
  unfold fraction
  split
  · next same => exact absurd (List.cons.inj same).1 other
  · rfl

theorem exponent_of_ne {letter : Char} (small : letter ≠ 'e') (large : letter ≠ 'E')
    (rest : List Char) : exponent (letter :: rest) = none := by
  unfold exponent
  split
  · next same =>
      cases same
      simp [small, large]
  · next same =>
      cases same
      simp [small, large]
  · rfl

theorem exponent_of_unsigned {sign : Char} (unsigned : sign ≠ '¯') (letter : Char)
    (rest : List Char) : exponent (letter :: sign :: rest) =
      if (letter == 'e' || letter == 'E') && !((sign :: rest).takeWhile isDigit).isEmpty then
        some (false, (sign :: rest).takeWhile isDigit)
      else none := by
  rw [exponent]
  rintro _ ⟨⟩
  exact unsigned rfl

variable {after : List Char}

theorem fraction_append (stops : Stops after) (letters : List Char) :
    fraction (letters ++ after) = fraction letters := by
  cases letters with
  | nil =>
      cases after with
      | nil => rfl
      | cons letter rest =>
          have sign := (stops letter rfl).not_mem
          simp only [List.mem_cons, not_or] at sign
          exact fraction_of_ne sign.1 rest
  | cons letter rest =>
      by_cases point : letter = '.'
      · subst point
        exact stops.takeWhile_append (fun _ stop => stop.isDigit_eq) rest
      · rw [List.cons_append, fraction_of_ne point, fraction_of_ne point]

theorem exponent_append (stops : Stops after) (letters : List Char) :
    exponent (letters ++ after) = exponent letters := by
  have digits := stops.takeWhile_append fun _ stop => stop.isDigit_eq
  have unmarked (letter : Char) (isHead : letter ∈ after.head?) := (stops letter isHead).not_mem
  simp only [List.mem_cons, not_or] at unmarked
  match letters with
  | [] =>
      cases after with
      | nil => rfl
      | cons letter rest =>
          exact exponent_of_ne (unmarked letter rfl).2.1 (unmarked letter rfl).2.2.1 rest
  | [letter] =>
      cases after with
      | nil => rfl
      | cons sign rest =>
          rw [List.singleton_append, exponent_of_unsigned (unmarked sign rfl).2.2.2.1,
            List.takeWhile_cons_of_neg (by simp [(stops sign rfl).isDigit_eq])]
          simp [exponent]
  | letter :: sign :: rest =>
      by_cases signed : sign = '¯'
      · subst signed
        rw [List.cons_append, List.cons_append, exponent, exponent, digits]
      · rw [List.cons_append, List.cons_append, exponent_of_unsigned signed,
          exponent_of_unsigned signed, ← List.cons_append, digits]

theorem length_fraction_le (letters : List Char) :
    fractionWidth (fraction letters) ≤ letters.length := by
  unfold fraction
  split
  · next rest =>
      have short := (List.takeWhile_prefix isDigit (l := rest)).length_le
      rw [fractionWidth]
      split
      · exact Nat.zero_le _
      · exact Nat.succ_le_succ short
  · exact Nat.zero_le _

theorem numeral_append (negative : Bool) (stops : Stops after) (letters : List Char) :
    numeral negative (letters ++ after) = numeral negative letters := by
  have whole := stops.takeWhile_append (fun _ stop => stop.isDigit_eq) letters
  have short := (List.takeWhile_prefix isDigit (l := letters)).length_le
  have fits := length_fraction_le (letters.drop (letters.takeWhile isDigit).length)
  rw [numeral, numeral, whole, List.drop_append_of_le_length short, fraction_append stops,
    List.drop_append_of_le_length fits, exponent_append stops]

theorem number_of_ne (sign : Nat) {letter : Char} (infinite : letter ≠ '∞') (circle : letter ≠ 'π')
    (rest : List Char) : number sign (letter :: rest) =
      if isDigit letter then
        ofNumber (numeral (0 < sign) (letter :: rest)).1.rounded
          (sign + (numeral (0 < sign) (letter :: rest)).2)
      else .broken sign := by
  rw [number]
  · rintro rfl
    exact infinite rfl
  · rintro rfl
    exact circle rfl

theorem number_append (sign : Nat) (stops : Stops after) (letters : List Char) :
    number sign (letters ++ after) = number sign letters := by
  cases letters with
  | nil =>
      cases after with
      | nil => rfl
      | cons letter rest =>
          have unmarked := (stops letter rfl).not_mem
          simp only [List.mem_cons, not_or] at unmarked
          rw [List.nil_append, number_of_ne sign unmarked.2.2.2.2.1 unmarked.2.2.2.2.2.1,
            if_neg (by simp [(stops letter rfl).isDigit_eq])]
          rfl
  | cons letter rest =>
      by_cases infinite : letter = '∞'
      · subst infinite
        rfl
      · by_cases circle : letter = 'π'
        · subst circle
          rfl
        · have plain := number_of_ne sign infinite circle
          rw [List.cons_append, plain, plain, ← List.cons_append, numeral_append _ stops]

theorem name_append (letter : Char) (stops : Stops after) (rest : List Char) :
    name letter (rest ++ after) = name letter rest := by
  rw [name, name, stops.takeWhile_append fun _ stop => stop.isNamePart_eq]

theorem system_append (stops : Stops after) (letters : List Char) :
    system (letters ++ after) = system letters := by
  cases letters with
  | nil =>
      cases after with
      | nil => rfl
      | cons letter rest =>
          have part := (stops letter rfl).isNamePart_eq
          rw [isNamePart, Text.isAlphanumeric, Bool.or_assoc, Bool.or_eq_false_iff] at part
          simp [system, part.1]
  | cons letter rest =>
      rw [List.cons_append, system, system, stops.takeWhile_append fun _ stop => stop.isNamePart_eq]

/-! ### Quoted text -/

theorem quotedText_of_ne {letter : Char} (plain : letter ≠ '"') (rest : List Char) :
    quotedText (letter :: rest) =
      (quotedText rest).map fun found => (letter :: found.1, found.2 + 1) := by
  rw [quotedText]
  · exact fun _ same _ => plain same
  · exact plain

theorem quotedText_quote {rest : List Char} (closes : rest.head? ≠ some '"') :
    quotedText ('"' :: rest) = some ([], 1) := by
  rw [quotedText]
  rintro _ rfl
  exact closes rfl

theorem quotedText_pos {letters : List Char} {found : List Char × Nat}
    (isText : quotedText letters = some found) : 0 < found.2 := by
  unfold quotedText at isText
  split at isText
  · obtain ⟨inner, _, rfl⟩ := Option.map_eq_some_iff.1 isText
    exact Nat.succ_pos _
  · cases isText
    exact Nat.one_pos
  · obtain ⟨inner, _, rfl⟩ := Option.map_eq_some_iff.1 isText
    exact Nat.succ_pos _
  · cases isText

/-- Characters that are read first make no difference to where a text ends. -/
theorem map_append_iff {before : Nat} {change : List Char → List Char} {rest : List Char}
    (further : ∀ found, quotedText (rest ++ after) = some found ∧ found.2 ≤ rest.length ↔
      quotedText rest = some found) {found : List Char × Nat} :
    ((quotedText (rest ++ after)).map fun inner => (change inner.1, inner.2 + before)) =
        some found ∧ found.2 ≤ rest.length + before ↔
      ((quotedText rest).map fun inner => (change inner.1, inner.2 + before)) = some found := by
  simp only [Option.map_eq_some_iff]
  constructor
  · rintro ⟨⟨inner, isText, rfl⟩, within⟩
    exact ⟨inner, (further inner).1 ⟨isText, Nat.le_of_add_le_add_right within⟩, rfl⟩
  · rintro ⟨inner, isText, rfl⟩
    obtain ⟨extended, within⟩ := (further inner).2 isText
    exact ⟨⟨inner, extended, rfl⟩, Nat.add_le_add_right within before⟩

theorem quotedText_append (stops : Stops after) (letters : List Char) (found : List Char × Nat) :
    quotedText (letters ++ after) = some found ∧ found.2 ≤ letters.length ↔
      quotedText letters = some found := by
  have closes : after.head? ≠ some '"' := by
    intro isHead
    simpa using (stops _ isHead).not_mem
  induction letters using quotedText.induct generalizing found with
  | case1 rest inductionHypothesis =>
      rw [List.cons_append, List.cons_append, quotedText, quotedText]
      exact map_append_iff inductionHypothesis
  | case2 rest single =>
      have alone : rest.head? ≠ some '"' := by
        intro isHead
        obtain ⟨others, rfl⟩ := List.head?_eq_some_iff.1 isHead
        exact single others rfl
      have next : (rest ++ after).head? ≠ some '"' := by
        cases rest with
        | nil => exact closes
        | cons => exact alone
      rw [List.cons_append, quotedText_quote next, quotedText_quote alone]
      constructor
      · exact And.left
      · rintro ⟨⟩
        exact ⟨rfl, Nat.succ_pos _⟩
  | case3 letter rest _ plain inductionHypothesis =>
      rw [List.cons_append, quotedText_of_ne plain, quotedText_of_ne plain]
      exact map_append_iff inductionHypothesis
  | case4 =>
      constructor
      · rintro ⟨isText, within⟩
        exact absurd (quotedText_pos isText) (Nat.not_lt.2 within)
      · rintro ⟨⟩

theorem string_append (stops : Stops after) (letters : List Char) {token : Token} {more : Nat} :
    string (letters ++ after) = .token token more ∧ more ≤ letters.length ↔
      string letters = .token token more := by
  have texts := quotedText_append stops letters
  unfold string
  constructor
  · rintro ⟨isToken, within⟩
    split at isToken
    · next found isText =>
        cases isToken
        rw [(texts found).1 ⟨isText, within⟩]
    · cases isToken
  · intro isToken
    split at isToken
    · next found isText =>
        cases isToken
        obtain ⟨extended, within⟩ := (texts found).2 isText
        rw [extended]
        exact ⟨rfl, within⟩
    · cases isToken

theorem character_eq_token {letters : List Char} {token : Token} {more : Nat} :
    character letters = .token token more ↔
      ∃ letter rest, letters = letter :: '\'' :: rest ∧ token = .atom (.character letter) ∧
        more = 2 := by
  constructor
  · intro isToken
    unfold character at isToken
    split at isToken
    · cases isToken
      exact ⟨_, _, rfl, rfl, rfl⟩
    · cases isToken
    · cases isToken
  · rintro ⟨letter, rest, rfl, rfl, rfl⟩
    rfl

theorem character_append (letters : List Char) {token : Token} {more : Nat} :
    character (letters ++ after) = .token token more ∧ more ≤ letters.length ↔
      character letters = .token token more := by
  rw [character_eq_token, character_eq_token]
  constructor
  · rintro ⟨⟨letter, rest, same, isToken, rfl⟩, within⟩
    match letters, within with
    | first :: second :: others, _ =>
        cases same
        exact ⟨_, others, rfl, isToken, rfl⟩
  · rintro ⟨letter, rest, rfl, isToken, rfl⟩
    exact ⟨⟨letter, rest ++ after, rfl, isToken, rfl⟩, Nat.le_add_left 2 rest.length⟩

/-! ### Whole tokens -/

end Scan

/-- The atom is a single word. -/
def Atom.isWord : Atom → Bool
  | .paren _ | .list _ | .strand _ | .block _ => false
  | _ => true

/-- The token is a single word, if it is an atom at all. -/
def Token.isWord : Token → Bool
  | .atom word => word.isWord
  | _ => true

/-- The token divides nothing. -/
def Token.isSolid : Token → Bool
  | .separator | .blank => false
  | _ => true

/-- The token begins or ends something in brackets. -/
def Token.isBracket : Token → Bool
  | .opening _ | .closing _ => true
  | _ => false

/-- The characters that begin and end something in brackets. -/
def bracketSigns : List Char :=
  ['(', ')', '⟨', '⟩', '\x7b', '\x7d']

/-- The last statement of a block, or one of its other statements, ends before the token. -/
def Token.endsStatement : Token → Bool
  | .separator | .closing .block => true
  | _ => false

namespace Scan

variable {after : List Char}

/-- How the rest of a token is read, by the character it begins with. -/
inductive Manner (letter : Char) : (List Char → Scan) → Prop where
  | alone {scan : Scan} :
      (∀ {token more}, scan = .token token more →
        more = 0 ∧ token.isWord = true ∧ (token.isSolid = true → Text.isBlank letter = false) ∧
          (token.endsStatement = true → Char.IsStop letter) ∧
          (token.isBracket = true → letter ∈ bracketSigns)) →
      Manner letter fun _ => scan
  | character : letter = '\'' → Manner letter character
  | string : letter = '"' → Manner letter string
  | system : Text.isBlank letter = false → Manner letter system
  | signed : Text.isBlank letter = false → Manner letter (number 1)
  | unsigned : Text.isBlank letter = false → Manner letter fun rest => number 0 (letter :: rest)
  | name : Text.isBlank letter = false → Manner letter (name letter)

theorem isBlank_of_modifier {letter : Char} {modifier : OneModifier}
    (isGlyph : OneModifier.ofGlyph? letter = some modifier) : Text.isBlank letter = false := by
  have same : modifier.glyph = letter := by simpa using List.find?_some isGlyph
  subst same
  cases modifier <;> decide

theorem isBlank_of_twoModifier {letter : Char} {modifier : TwoModifier}
    (isGlyph : TwoModifier.ofGlyph? letter = some modifier) : Text.isBlank letter = false := by
  have same : modifier.glyph = letter := by simpa using List.find?_some isGlyph
  subst same
  cases modifier <;> decide

theorem isBlank_of_primitive {letter : Char} {primitive : Primitive}
    (isGlyph : Primitive.ofGlyph? letter = some primitive) : Text.isBlank letter = false := by
  have same : primitive.glyph = letter := by simpa using List.find?_some isGlyph
  subst same
  cases primitive <;> decide

theorem manner_glyph (letter : Char) : Manner letter fun _ => glyph letter := by
  refine .alone fun {token more} isToken => ?_
  unfold glyph at isToken
  split at isToken
  · next isGlyph =>
      cases isToken
      exact ⟨rfl, rfl, fun _ => isBlank_of_modifier isGlyph, nofun, nofun⟩
  · next isGlyph =>
      cases isToken
      exact ⟨rfl, rfl, fun _ => isBlank_of_twoModifier isGlyph, nofun, nofun⟩
  · next isGlyph =>
      cases isToken
      exact ⟨rfl, rfl, fun _ => isBlank_of_primitive isGlyph, nofun, nofun⟩
  · split at isToken
    · cases isToken
      exact ⟨rfl, rfl, nofun, nofun, nofun⟩
    · cases isToken

/-- The characters that are read in a manner of their own. -/
def signs : List Char :=
  ['(', ')', '⟨', '⟩', '\x7b', '\x7d', '⋄', '◊', ',', '\n', '‿', '𝕩', '𝕏', '𝕨', '𝕎', '𝕤', '𝕊',
   '←', '↩', '?', '\'', '"', '•', '¯', '∞', 'π']

theorem ofLetter_of_not_mem {letter : Char} (plain : letter ∉ signs) (rest : List Char) :
    ofLetter letter rest =
      if isDigit letter then number 0 (letter :: rest)
      else if Text.isAlphabetic letter then name letter rest
      else glyph letter := by
  unfold ofLetter
  split
  all_goals first | exact absurd (by decide) plain | rfl

theorem manner (letter : Char) : Manner letter (ofLetter letter) := by
  by_cases plain : letter ∈ signs
  · simp only [signs, List.mem_cons, List.not_mem_nil, or_false] at plain
    rcases plain with rfl | rfl | rfl | rfl | rfl | rfl | rfl | rfl | rfl | rfl | rfl | rfl | rfl |
      rfl | rfl | rfl | rfl | rfl | rfl | rfl | rfl | rfl | rfl | rfl | rfl | rfl
    all_goals first
      | exact .alone (by rintro _ _ ⟨⟩; exact ⟨rfl, rfl, by decide, by decide, by decide⟩)
      | exact .character rfl
      | exact .string rfl
      | exact .system (by decide)
      | exact .signed (by decide)
  · rw [funext (ofLetter_of_not_mem plain)]
    split
    · next digit => exact .unsigned (Text.isBlank_of_isDigit digit)
    · split
      · next alphabetic => exact .name (Text.isBlank_of_isAlphabetic alphabetic)
      · exact manner_glyph letter

end Scan

/-! ### Where tokens end -/

/-- The text does not end with a blank. -/
def Solid (letters : List Char) : Prop :=
  ∀ last ∈ letters.getLast?, Text.isBlank last = false

theorem solid_nil : Solid [] :=
  nofun

theorem solid_singleton {letter : Char} (solid : Text.isBlank letter = false) :
    Solid [letter] := by
  rintro _ ⟨⟩
  exact solid

theorem Solid.append {first second : List Char} (firsts : Solid first) (seconds : Solid second) :
    Solid (first ++ second) := by
  intro last isLast
  rw [List.getLast?_append, Option.mem_def, Option.or_eq_some_iff] at isLast
  obtain isLast | ⟨_, isLast⟩ := isLast
  · exact seconds last isLast
  · exact firsts last isLast

theorem Solid.of_all {letters : List Char}
    (solid : ∀ letter ∈ letters, Text.isBlank letter = false) : Solid letters :=
  fun last isLast => solid last (List.mem_of_getLast? isLast)

/-- The last character of a text decides. -/
theorem solid_concat {letters : List Char} {letter : Char}
    (solid : Text.isBlank letter = false) : Solid (letters ++ [letter]) := by
  rintro last isLast
  rw [List.getLast?_concat] at isLast
  cases isLast
  exact solid

theorem Solid.prepend {letters : List Char} (solid : Solid letters) (some : letters ≠ [])
    (before : List Char) : Solid (before ++ letters) := by
  intro last isLast
  have last? := List.getLast?_eq_some_getLast some
  rw [List.getLast?_append, last?, Option.some_or] at isLast
  exact solid last (last?.trans isLast)

namespace Scan

theorem solid_nameParts (letters : List Char) : Solid (letters.takeWhile isNamePart) :=
  .of_all fun _ member => Text.isBlank_of_isNamePart (List.mem_takeWhile_imp member)

theorem take_takeWhile {test : Char → Bool} (letters : List Char) :
    letters.take (letters.takeWhile test).length = letters.takeWhile test :=
  (List.prefix_iff_eq_take.1 (List.takeWhile_prefix test)).symm

/-- The character can stand in a number. -/
def isNumberPart (letter : Char) : Bool :=
  isDigit letter || letter ∈ ['.', 'e', 'E', '¯', '∞', 'π']

theorem isBlank_of_isNumberPart {letter : Char} (part : isNumberPart letter = true) :
    Text.isBlank letter = false := by
  rcases Bool.or_eq_true_iff.1 part with digit | sign
  · exact Text.isBlank_of_isDigit digit
  · simp only [List.mem_cons, List.not_mem_nil, or_false, decide_eq_true_eq] at sign
    rcases sign with rfl | rfl | rfl | rfl | rfl | rfl <;> decide

theorem digits_parts (letters : List Char) :
    ∀ letter ∈ letters.takeWhile isDigit, isNumberPart letter = true :=
  fun _ member => Bool.or_eq_true_iff.2 (.inl (List.mem_takeWhile_imp member))

theorem fraction_parts (letters : List Char) :
    ∀ letter ∈ letters.take (fractionWidth (fraction letters)), isNumberPart letter = true := by
  unfold fraction
  split
  · next rest =>
      rw [fractionWidth]
      split
      · exact List.forall_mem_nil _
      · rw [List.take_succ_cons, take_takeWhile]
        exact List.forall_mem_cons.2 ⟨by decide, digits_parts rest⟩
  · exact List.forall_mem_nil _

theorem exponent_cases (letters : List Char) :
    exponent letters = none ∨
      (∃ letter rest, letters = letter :: '¯' :: rest ∧ isNumberPart letter = true ∧
        exponent letters = some (true, rest.takeWhile isDigit)) ∨
      ∃ letter rest, letters = letter :: rest ∧ isNumberPart letter = true ∧
        exponent letters = some (false, rest.takeWhile isDigit) := by
  have marks {letter : Char} (marked : (letter == 'e' || letter == 'E') = true) :
      isNumberPart letter = true := by
    rcases Bool.or_eq_true_iff.1 marked with same | same
    · exact beq_iff_eq.1 same ▸ by decide
    · exact beq_iff_eq.1 same ▸ by decide
  unfold exponent
  split
  · next letter rest =>
      dsimp only
      split
      · next marked =>
          exact .inr (.inl ⟨letter, rest, rfl, marks (Bool.and_eq_true_iff.1 marked).1, rfl⟩)
      · exact .inl rfl
  · next letter rest _ =>
      dsimp only
      split
      · next marked =>
          exact .inr (.inr ⟨letter, rest, rfl, marks (Bool.and_eq_true_iff.1 marked).1, rfl⟩)
      · exact .inl rfl
  · exact .inl rfl

theorem exponent_parts (letters : List Char) :
    (∀ letter ∈ letters.take (exponentWidth (exponent letters)), isNumberPart letter = true) ∧
      exponentWidth (exponent letters) ≤ letters.length := by
  obtain absent | ⟨letter, rest, rfl, part, present⟩ | ⟨letter, rest, rfl, part, present⟩ :=
    exponent_cases letters
  · rw [absent]
    exact ⟨List.forall_mem_nil _, Nat.zero_le _⟩
  · have short := (List.takeWhile_prefix isDigit (l := rest)).length_le
    rw [present, exponentWidth, if_pos rfl, List.take_succ_cons, List.take_succ_cons,
      take_takeWhile]
    refine ⟨List.forall_mem_cons.2 ⟨part, List.forall_mem_cons.2 ⟨by decide, digits_parts rest⟩⟩,
      ?_⟩
    simpa using short
  · have short := (List.takeWhile_prefix isDigit (l := rest)).length_le
    rw [present, exponentWidth, if_neg Bool.false_ne_true, List.take_succ_cons, take_takeWhile]
    exact ⟨List.forall_mem_cons.2 ⟨part, digits_parts rest⟩, Nat.succ_le_succ short⟩

theorem numeral_parts (negative : Bool) (letters : List Char) :
    (∀ letter ∈ letters.take (numeral negative letters).2, isNumberPart letter = true) ∧
      (numeral negative letters).2 ≤ letters.length := by
  have short := (List.takeWhile_prefix isDigit (l := letters)).length_le
  have whole := digits_parts letters
  rw [← take_takeWhile] at whole
  rw [numeral]
  generalize (letters.takeWhile isDigit).length = first at *
  have fraction := fraction_parts (letters.drop first)
  have fits := length_fraction_le (letters.drop first)
  generalize fractionWidth (Scan.fraction (letters.drop first)) = second at *
  obtain ⟨exponent, ends⟩ := exponent_parts ((letters.drop first).drop second)
  simp only [List.length_drop] at fits ends
  refine ⟨?_, by omega⟩
  rw [List.take_add, List.take_add, ← List.drop_drop]
  exact List.forall_mem_append.2 ⟨List.forall_mem_append.2 ⟨whole, fraction⟩, exponent⟩

theorem quotedText_ends {letters : List Char} {found : List Char × Nat}
    (isText : quotedText letters = some found) :
    (∃ inner, letters.take found.2 = inner ++ ['"']) ∧ found.2 ≤ letters.length := by
  induction letters using quotedText.induct generalizing found with
  | case1 rest inductionHypothesis =>
      rw [quotedText] at isText
      obtain ⟨later, isLater, rfl⟩ := Option.map_eq_some_iff.1 isText
      obtain ⟨⟨inner, ends⟩, within⟩ := inductionHypothesis isLater
      refine ⟨⟨'"' :: '"' :: inner, ?_⟩, Nat.add_le_add_right within 2⟩
      rw [List.take_succ_cons, List.take_succ_cons, ends]
      rfl
  | case2 rest single =>
      rw [quotedText] at isText
      · cases isText
        exact ⟨⟨[], rfl⟩, Nat.succ_pos _⟩
      · exact single
  | case3 letter rest _ plain inductionHypothesis =>
      rw [quotedText_of_ne plain] at isText
      obtain ⟨later, isLater, rfl⟩ := Option.map_eq_some_iff.1 isText
      obtain ⟨⟨inner, ends⟩, within⟩ := inductionHypothesis isLater
      refine ⟨⟨letter :: inner, ?_⟩, Nat.add_le_add_right within 1⟩
      rw [List.take_succ_cons, ends]
      rfl
  | case4 => cases isText

/-- What is known of a token that begins with a character. -/
structure Scanned (letter : Char) (rest : List Char) (token : Token) (more : Nat) : Prop where
  within : more ≤ rest.length
  isWord : token.isWord = true
  begins : token.isSolid = true → Text.isBlank letter = false
  ends : token.isSolid = true → Solid (rest.take more)
  stops : token.endsStatement = true → Char.IsStop letter
  brackets : token.isBracket = true → letter ∈ bracketSigns

theorem numeral_pos {letter : Char} (digit : isDigit letter = true) (negative : Bool)
    (rest : List Char) : 0 < (numeral negative (letter :: rest)).2 := by
  rw [numeral, List.takeWhile_cons_of_pos digit, List.length_cons]
  omega

theorem number_ends {sign : Nat} {letters : List Char} {token : Token} {more : Nat}
    (isToken : number sign letters = .token token more) :
    ∃ value width, token = .atom (.number value) ∧ more + 1 = sign + width ∧ 0 < width ∧
      width ≤ letters.length ∧ ∀ letter ∈ letters.take width, isNumberPart letter = true := by
  cases letters with
  | nil => cases isToken
  | cons letter rest =>
      by_cases infinite : letter = '∞'
      · subst infinite
        cases isToken
        exact ⟨_, 1, rfl, rfl, Nat.one_pos, Nat.succ_pos _, List.forall_mem_singleton.2 (by decide)⟩
      · by_cases circle : letter = 'π'
        · subst circle
          cases isToken
          exact ⟨_, 1, rfl, rfl, Nat.one_pos, Nat.succ_pos _,
            List.forall_mem_singleton.2 (by decide)⟩
        · rw [number_of_ne sign infinite circle] at isToken
          split at isToken
          · next digit =>
              obtain ⟨parts, within⟩ := numeral_parts (0 < sign) (letter :: rest)
              have positive := numeral_pos digit (0 < sign) rest
              cases isToken
              exact ⟨_, _, rfl, by omega, positive, within, parts⟩
          · cases isToken

theorem Manner.scanned {letter : Char} {scan : List Char → Scan} (manner : Manner letter scan)
    {rest : List Char} {token : Token} {more : Nat} (isToken : scan rest = .token token more) :
    Scanned letter rest token more := by
  cases manner with
  | alone known =>
      obtain ⟨rfl, isWord, solid, stops, brackets⟩ := known isToken
      exact ⟨Nat.zero_le _, isWord, solid, fun _ => solid_nil, stops, brackets⟩
  | character isQuote =>
      obtain ⟨quoted, others, rfl, rfl, rfl⟩ := character_eq_token.1 isToken
      exact ⟨Nat.le_add_left 2 others.length, rfl, fun _ => isQuote ▸ by decide,
        fun _ => show Solid ([quoted] ++ ['\'']) from solid_concat (by decide), nofun, nofun⟩
  | string isQuote =>
      unfold Scan.string at isToken
      split at isToken
      · next found isText =>
          obtain ⟨⟨inner, closes⟩, within⟩ := quotedText_ends isText
          cases isToken
          exact ⟨within, rfl, fun _ => isQuote ▸ by decide,
            fun _ => closes ▸ solid_concat (by decide), nofun, nofun⟩
      · cases isToken
  | system solid =>
      unfold Scan.system at isToken
      split at isToken
      · next initial others =>
          split at isToken
          · next alphabetic =>
              have short := (List.takeWhile_prefix isNamePart (l := others)).length_le
              have begins : Text.isBlank initial = false := Text.isBlank_of_isAlphabetic alphabetic
              cases isToken
              refine ⟨Nat.succ_le_succ short, rfl, fun _ => solid, fun _ => ?_, nofun, nofun⟩
              rw [List.take_succ_cons, take_takeWhile]
              exact (solid_singleton begins).append (solid_nameParts others)
          · cases isToken
      · cases isToken
  | signed solid =>
      obtain ⟨_, width, rfl, same, _, within, parts⟩ := number_ends isToken
      obtain rfl : more = width := by omega
      refine ⟨within, rfl, fun _ => solid, fun _ => .of_all fun letter part => ?_, nofun, nofun⟩
      exact isBlank_of_isNumberPart (parts letter part)
  | unsigned solid =>
      obtain ⟨_, width, rfl, same, positive, within, parts⟩ := number_ends isToken
      obtain rfl : width = more + 1 := by omega
      refine ⟨Nat.le_of_succ_le_succ within, rfl, fun _ => solid,
        fun _ => .of_all fun letter part => ?_, nofun, nofun⟩
      exact isBlank_of_isNumberPart (parts letter (List.mem_cons_of_mem _ part))
  | name solid =>
      have short := (List.takeWhile_prefix isNamePart (l := rest)).length_le
      cases isToken
      refine ⟨short, rfl, fun _ => solid, fun _ => ?_, nofun, nofun⟩
      rw [take_takeWhile]
      exact solid_nameParts rest

theorem Manner.append {letter : Char} {scan : List Char → Scan} (manner : Manner letter scan)
    {after : List Char} (stops : Stops after) (letters : List Char) {token : Token}
    {more : Nat} :
    scan (letters ++ after) = .token token more ∧ more ≤ letters.length ↔
      scan letters = .token token more := by
  -- Where the rest of the text makes no difference, the token tells how long it is.
  have same (equal : scan (letters ++ after) = scan letters) :
      scan (letters ++ after) = .token token more ∧ more ≤ letters.length ↔
        scan letters = .token token more := by
    rw [equal]
    exact ⟨And.left, fun isToken => ⟨isToken, (manner.scanned isToken).within⟩⟩
  cases manner with
  | alone => exact same rfl
  | character => exact character_append letters
  | string => exact string_append stops letters
  | system => exact same (system_append stops letters)
  | signed => exact same (number_append 1 stops letters)
  | unsigned => exact same (number_append 0 stops (letter :: letters))
  | name => exact same (name_append letter stops letters)

theorem scanned {letter : Char} {rest : List Char} {token : Token} {more : Nat}
    (isToken : ofLetter letter rest = .token token more) : Scanned letter rest token more :=
  (manner letter).scanned isToken

/-- What follows a token does not count, as long as it ends every token. -/
theorem ofLetter_append {after : List Char} (stops : Stops after) (letter : Char)
    (letters : List Char) {token : Token} {more : Nat} :
    ofLetter letter (letters ++ after) = .token token more ∧ more ≤ letters.length ↔
      ofLetter letter letters = .token token more :=
  (manner letter).append stops letters

end Scan

end PointFree
