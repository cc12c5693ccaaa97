import Mathlib.Data.List.TakeWhile
import PointFree.Decimal.Notation
import PointFree.Proofs.Spans.Scanning

/-!
Contract: the written form of a number is one token.

A finite double is written with its digits in their places: those of the whole part, and where
there are any those of the fraction after a point. `number_written` says that such a form is read
as a number up to its end, whatever of the written forms of data goes on after it. The number is
`restored amount`; that it equals the amount is a property of the digits alone.
-/

namespace PointFree

/-- The text is over or goes on with a character that stands between the parts of data. -/
def Divides (after : List Char) : Prop :=
  ∀ letter ∈ after.head?, letter ∈ [',', '⟩', '‿', '⥊']

theorem divides_nil : Divides [] :=
  nofun

theorem divides_cons {letter : Char} (divides : letter ∈ [',', '⟩', '‿', '⥊']) (rest : List Char) :
    Divides (letter :: rest) := by
  rintro _ ⟨⟩
  exact divides

namespace Divides

variable {after : List Char}

/-- What can be checked of each of the characters holds of the one that comes next. -/
theorem all (divides : Divides after) (test : Char → Bool)
    (passes : [',', '⟩', '‿', '⥊'].all test = true) :
    ∀ letter ∈ after.head?, test letter = true :=
  fun letter isHead => List.all_eq_true.1 passes letter (divides letter isHead)

theorem takeWhile_append (divides : Divides after) {letters : List Char}
    (digits : ∀ letter ∈ letters, Scan.isDigit letter = true) :
    (letters ++ after).takeWhile Scan.isDigit = letters := by
  rw [List.takeWhile_append_of_pos digits]
  cases after with
  | nil => exact List.append_nil letters
  | cons letter rest =>
      have other := divides.all (fun letter => !Scan.isDigit letter) (by decide) letter rfl
      rw [List.takeWhile_cons_of_neg (by simpa using other), List.append_nil]

theorem fraction_eq (divides : Divides after) : Scan.fraction after = [] := by
  cases after with
  | nil => rfl
  | cons letter rest =>
      have other := divides.all (· ≠ '.') (by decide) letter rfl
      exact Scan.fraction_of_ne (by simpa using other) rest

theorem exponent_eq (divides : Divides after) : Scan.exponent after = none := by
  cases after with
  | nil => rfl
  | cons letter rest =>
      have small := divides.all (· ≠ 'e') (by decide) letter rfl
      have large := divides.all (· ≠ 'E') (by decide) letter rfl
      exact Scan.exponent_of_ne (by simpa using small) (by simpa using large) rest

end Divides

theorem Scan.number_of_isDigit {letter : Char} (digit : isDigit letter = true) (sign : Nat)
    (rest : List Char) :
    number sign (letter :: rest) =
      ofNumber (numeral (0 < sign) (letter :: rest)).1.rounded
        (sign + (numeral (0 < sign) (letter :: rest)).2) := by
  have infinite : letter ≠ '∞' := by
    rintro rfl
    cases digit
  have circle : letter ≠ 'π' := by
    rintro rfl
    cases digit
  rw [number_of_ne sign infinite circle, if_pos digit]

namespace Decimal

/-! ### Digits in their places -/

/-- The digits before the point and those after it. -/
structure Places where
  whole : List Char
  fraction : List Char

namespace Places

/-- The digits times a power of ten. -/
def ofDigits (digits : List Char) (exponent : Int) : Places :=
  let point : Int := digits.length + exponent
  if 0 ≤ exponent then ⟨digits ++ List.replicate exponent.toNat '0', []⟩
  else if 0 < point then ⟨digits.take point.toNat, digits.drop point.toNat⟩
  else ⟨['0'], List.replicate (-point).toNat '0' ++ digits⟩

/-- Without a fraction there is no point. -/
def letters (places : Places) : List Char :=
  places.whole ++ if places.fraction.isEmpty then [] else '.' :: places.fraction

theorem positionalText_eq {digits : List Char} (some : digits ≠ []) (exponent : Int) :
    positionalText "" digits exponent = String.ofList (ofDigits digits exponent).letters := by
  have length := List.length_pos_iff.2 some
  rw [← String.toList_inj, positionalText, ofDigits]
  split
  · simp [letters, zeros]
  · split
    · next below above =>
        have fraction : (digits.drop (digits.length + exponent).toNat).isEmpty = false := by
          rw [List.isEmpty_eq_false_iff, Ne, List.drop_eq_nil_iff]
          omega
        simp [letters, fraction]
    · simp [letters, zeros, some]

/-- The whole part is not empty, and everything is a digit. -/
structure AreDigits (places : Places) : Prop where
  some : places.whole ≠ []
  whole : ∀ letter ∈ places.whole, Scan.isDigit letter = true
  fraction : ∀ letter ∈ places.fraction, Scan.isDigit letter = true

theorem areDigits_ofDigits {digits : List Char} (some : digits ≠ [])
    (areDigits : ∀ letter ∈ digits, Scan.isDigit letter = true) (exponent : Int) :
    (ofDigits digits exponent).AreDigits := by
  have zero (count : Nat) : ∀ letter ∈ List.replicate count '0', Scan.isDigit letter = true := by
    intro letter member
    rw [List.eq_of_mem_replicate member]
    rfl
  rw [ofDigits]
  split
  · refine ⟨by simp [some], fun letter member => ?_, nofun⟩
    exact (List.mem_append.1 member).elim (areDigits letter) (zero _ letter)
  · split
    · next above =>
        refine ⟨?_, fun letter member => areDigits letter (List.mem_of_mem_take member),
          fun letter member => areDigits letter (List.mem_of_mem_drop member)⟩
        rw [Ne, List.take_eq_nil_iff, not_or]
        exact ⟨by omega, some⟩
    · refine ⟨List.cons_ne_nil _ _, ?_, fun letter member => ?_⟩
      · rintro _ (_ | ⟨_, ⟨⟩⟩)
        rfl
      · exact (List.mem_append.1 member).elim (zero _ letter) (areDigits letter)

/-- The places of an absolute value. -/
def ofMagnitude (mantissa : Nat) (exponent : Int) : Places :=
  if mantissa = 0 then ⟨['0'], []⟩
  else
    let decimal := shortest .away mantissa exponent
    ofDigits (Nat.toDigits 10 decimal.digits) decimal.exponent

theorem isDigit_of_mem_toDigits {number : Nat} {letter : Char}
    (member : letter ∈ Nat.toDigits 10 number) : Scan.isDigit letter = true := by
  have digit := Nat.isDigit_of_mem_toDigits (by decide) (by decide) member
  rw [Char.isDigit, Bool.and_eq_true, decide_eq_true_eq, decide_eq_true_eq] at digit
  rw [Scan.isDigit, Bool.and_eq_true, decide_eq_true_eq, decide_eq_true_eq]
  exact digit

theorem areDigits_ofMagnitude (mantissa : Nat) (exponent : Int) :
    (ofMagnitude mantissa exponent).AreDigits := by
  rw [ofMagnitude]
  split
  · exact ⟨List.cons_ne_nil _ _, List.forall_mem_singleton.2 rfl, nofun⟩
  · exact areDigits_ofDigits Nat.toDigits_ne_nil (fun _ => isDigit_of_mem_toDigits) _

theorem magnitudeText_eq (mantissa : Nat) (exponent : Int) :
    Style.display.magnitudeText mantissa exponent =
      String.ofList (ofMagnitude mantissa exponent).letters := by
  rw [Style.magnitudeText, ofMagnitude]
  split
  · rfl
  · rw [← positionalText_eq Nat.toDigits_ne_nil]
    exact if_pos rfl

variable {places : Places}

theorem AreDigits.exists_first (areDigits : places.AreDigits) :
    ∃ letter more, places.letters = letter :: more ∧ Scan.isDigit letter = true := by
  obtain ⟨letter, more, same⟩ := List.exists_cons_of_ne_nil areDigits.some
  refine ⟨letter, _, by rw [letters, same, List.cons_append], areDigits.whole letter ?_⟩
  rw [same]
  exact List.mem_cons_self

/-- A numeral is read up to its end. -/
theorem AreDigits.numeral_eq (areDigits : places.AreDigits) (negative : Bool) {after : List Char}
    (divides : Divides after) :
    Scan.numeral negative (places.letters ++ after) =
      (⟨negative, places.whole, places.fraction, none⟩, places.letters.length) := by
  by_cases fraction : places.fraction = []
  · have whole : places.letters = places.whole := by simp [letters, fraction]
    rw [Scan.numeral, whole, divides.takeWhile_append areDigits.whole, List.drop_left]
    simp [divides.fraction_eq, divides.exponent_eq, fraction, Scan.fractionWidth,
      Scan.exponentWidth]
  · have whole : places.letters = places.whole ++ '.' :: places.fraction := by
      simp [letters, fraction]
    have first : (places.whole ++ ('.' :: (places.fraction ++ after))).takeWhile Scan.isDigit =
        places.whole := by
      rw [List.takeWhile_append_of_pos areDigits.whole, List.takeWhile_cons_of_neg (by decide),
        List.append_nil]
    have second : Scan.fraction ('.' :: (places.fraction ++ after)) = places.fraction :=
      divides.takeWhile_append areDigits.fraction
    have width : Scan.fractionWidth places.fraction = ('.' :: places.fraction).length := by
      simp [Scan.fractionWidth, fraction]
    rw [Scan.numeral, whole, List.append_assoc, List.cons_append, first, List.drop_left, second,
      width, ← List.cons_append, List.drop_left, divides.exponent_eq]
    simp [Scan.exponentWidth]

theorem AreDigits.number_eq (areDigits : places.AreDigits) (sign : Nat) {after : List Char}
    (divides : Divides after) :
    Scan.number sign (places.letters ++ after) =
      Scan.ofNumber (Numeral.rounded ⟨decide (0 < sign), places.whole, places.fraction, none⟩)
        (sign + places.letters.length) := by
  have read := areDigits.numeral_eq (0 < sign) divides
  obtain ⟨letter, more, same, digit⟩ := areDigits.exists_first
  rw [same, List.cons_append] at read ⊢
  rw [Scan.number_of_isDigit digit, read]

end Places

/-! ### Numbers -/

theorem natOfDigits_toDigits (number : Nat) : natOfDigits (Nat.toDigits 10 number) = number := by
  calc natOfDigits (Nat.toDigits 10 number)
      = Nat.ofDigitChars 10 (Nat.toDigits 10 number) 0 := by
        simp only [natOfDigits, Nat.ofDigitChars, Nat.mul_comm]
    _ = number := Nat.ofDigitChars_toDigits (by decide) (by decide)

/-- The number is written with a sign. -/
def isSigned (amount : Float) : Bool :=
  match Dyadic.ofFloat? amount with
  | some dyadic => dyadic.negative && dyadic.mantissa ≠ 0
  | none => isNegative amount

/-- How the absolute value of a number is written. -/
def magnitudeLetters (amount : Float) : List Char :=
  match Dyadic.ofFloat? amount with
  | some dyadic => (Places.ofMagnitude dyadic.mantissa dyadic.exponent).letters
  | none => ['∞']

/-- The double that the digits of a number denote. -/
def restored (amount : Float) : Float :=
  match Dyadic.ofFloat? amount with
  | some dyadic =>
      let places := Places.ofMagnitude dyadic.mantissa dyadic.exponent
      Numeral.rounded ⟨isSigned amount, places.whole, places.fraction, none⟩
  | none => signed (isNegative amount) infinity

theorem magnitudeLetters_cases (amount : Float) :
    (∃ letter more, magnitudeLetters amount = letter :: more ∧ Scan.isDigit letter = true) ∨
      magnitudeLetters amount = ['∞'] := by
  rw [magnitudeLetters]
  cases Dyadic.ofFloat? amount with
  | some dyadic => exact .inl (Places.areDigits_ofMagnitude _ _).exists_first
  | none => exact .inr rfl

theorem text_eq {amount : Float} (isNumber : amount.isNaN = false) :
    (Style.display.text amount).toList =
      (if isSigned amount then ['¯'] else []) ++ magnitudeLetters amount := by
  rw [Style.text, isSigned, magnitudeLetters]
  cases Dyadic.ofFloat? amount with
  | some dyadic =>
      dsimp only
      rw [Places.magnitudeText_eq, String.toList_append, String.toList_ofList]
      obtain ⟨negative, mantissa, exponent⟩ := dyadic
      by_cases zero : mantissa = 0
      · cases negative <;> simp [Style.display, zero]
      · cases negative <;> simp [Style.display, zero]
  | none =>
      dsimp only
      rw [if_neg (by rw [isNumber]; exact Bool.false_ne_true), if_neg (by decide)]
      cases isNegative amount <;> rfl

theorem number_written (amount : Float) {after : List Char} (divides : Divides after) :
    Scan.number (isSigned amount).toNat (magnitudeLetters amount ++ after) =
      Scan.ofNumber (restored amount)
        ((isSigned amount).toNat + (magnitudeLetters amount).length) := by
  have negative : decide (0 < (isSigned amount).toNat) = isSigned amount := by
    cases isSigned amount <;> rfl
  rw [magnitudeLetters, restored]
  cases isFinite : Dyadic.ofFloat? amount with
  | some dyadic =>
      dsimp only
      have areDigits := Places.areDigits_ofMagnitude dyadic.mantissa dyadic.exponent
      rw [areDigits.number_eq _ divides, negative]
  | none =>
      dsimp only
      rw [isSigned, isFinite]
      cases isNegative amount <;> rfl

end Decimal

/-! ### Words -/

/-- Text with every quote in it written twice. -/
def Text.doubled (text : List Char) : List Char :=
  text.flatMap fun letter => if letter = '"' then ['"', '"'] else [letter]

theorem Text.doubled_of_not_mem {text : List Char} (plain : '"' ∉ text) : doubled text = text := by
  induction text with
  | nil => rfl
  | cons letter text inductionHypothesis =>
      rw [List.mem_cons, not_or] at plain
      rw [doubled, List.flatMap_cons, if_neg (Ne.symm plain.1)]
      exact congrArg (letter :: ·) (inductionHypothesis plain.2)

/-- The first quote that stands alone ends the text. -/
theorem Scan.quotedText_doubled (text : List Char) {after : List Char}
    (closes : after.head? ≠ some '"') : quotedText (Text.doubled text ++ '"' :: after) =
      some (text, (Text.doubled text).length + 1) := by
  induction text with
  | nil => exact quotedText_quote closes
  | cons letter text inductionHypothesis =>
      rw [Text.doubled, List.flatMap_cons, ← Text.doubled]
      by_cases quote : letter = '"'
      · subst quote
        rw [if_pos rfl, List.cons_append, List.singleton_append, List.cons_append,
          List.cons_append, quotedText, inductionHypothesis]
        rfl
      · rw [if_neg quote, List.singleton_append, List.cons_append, quotedText_of_ne quote,
          inductionHypothesis]
        rfl

/-- The letters are one token where these come after. -/
inductive IsToken (after : List Char) : List Char → Token → Prop where
  | mk {letter : Char} {more : List Char} {token : Token} :
      isGap letter = false → letter ≠ '#' →
      Scan.ofLetter letter (more ++ after) = .token token more.length →
      IsToken after (letter :: more) token

namespace IsToken

variable {after : List Char}

theorem of_isDigit {letter : Char} (digit : Scan.isDigit letter = true) {more : List Char}
    {number : Float}
    (reads : Scan.number 0 (letter :: more ++ after) =
      Scan.ofNumber number (letter :: more).length) :
    IsToken after (letter :: more) (.atom (.number number)) := by
  have plain : letter ∉ Scan.signs := by
    intro member
    have none := List.all_eq_true.1 (show Scan.signs.all (!Scan.isDigit ·) = true by decide)
      letter member
    rw [digit] at none
    cases none
  refine .mk ?_ ?_ ?_
  · rw [← Bool.not_eq_true]
    intro gap
    rw [isGap, Bool.or_eq_true, Bool.or_eq_true, beq_iff_eq, beq_iff_eq, beq_iff_eq] at gap
    rcases gap with (rfl | rfl) | rfl <;> cases digit
  · rintro rfl
    cases digit
  · rw [Scan.ofLetter_of_not_mem plain, if_pos digit]
    exact reads

theorem number {amount : Float} (isNumber : amount.isNaN = false) (divides : Divides after) :
    IsToken after (Decimal.Style.display.text amount).toList
      (.atom (.number (Decimal.restored amount))) := by
  have reads := Decimal.number_written amount divides
  rw [Decimal.text_eq isNumber]
  cases signed : Decimal.isSigned amount with
  | true =>
      rw [signed, Bool.toNat_true, Scan.ofNumber, Nat.add_sub_cancel_left] at reads
      exact .mk (by decide) (by decide) reads
  | false =>
      rw [signed, Bool.toNat_false, Nat.zero_add] at reads
      rw [if_neg Bool.false_ne_true, List.nil_append]
      obtain ⟨letter, more, same, digit⟩ | infinite := Decimal.magnitudeLetters_cases amount
      · rw [same] at reads ⊢
        exact of_isDigit digit reads
      · rw [infinite] at reads ⊢
        exact .mk (by decide) (by decide) reads

/-- The length of an axis. -/
theorem axis (axis : Nat) (divides : Divides after) :
    IsToken after (Nat.toDigits 10 axis) (.atom (.number (Decimal.nearest axis 0))) := by
  have areDigits : Decimal.Places.AreDigits ⟨Nat.toDigits 10 axis, []⟩ :=
    ⟨Nat.toDigits_ne_nil, fun _ => Decimal.Places.isDigit_of_mem_toDigits, nofun⟩
  have reads := areDigits.number_eq 0 divides
  obtain ⟨letter, more, same, digit⟩ := areDigits.exists_first
  have letters : (Decimal.Places.mk (Nat.toDigits 10 axis) []).letters = Nat.toDigits 10 axis :=
    List.append_nil _
  have value : Decimal.Numeral.rounded ⟨decide (0 < 0), Nat.toDigits 10 axis, [], none⟩ =
      Decimal.nearest axis 0 := by
    rw [Decimal.Numeral.rounded, List.append_nil, Decimal.natOfDigits_toDigits]
    rfl
  rw [value, Nat.zero_add] at reads
  rw [letters] at same reads
  rw [same] at reads ⊢
  exact of_isDigit digit reads

theorem character (letter : Char) :
    IsToken after ['\'', letter, '\''] (.atom (.character letter)) :=
  .mk (by decide) (by decide) rfl

theorem doubled (text : List Char) (closes : after.head? ≠ some '"') :
    IsToken after ('"' :: (Text.doubled text ++ ['"'])) (.atom (.string (String.ofList text))) := by
  refine .mk (by decide) (by decide) ?_
  rw [List.append_assoc, List.length_append]
  change Scan.string (Text.doubled text ++ '"' :: after) = _
  rw [Scan.string, Scan.quotedText_doubled text closes]
  rfl

theorem text {text : List Char} (plain : '"' ∉ text) (divides : Divides after) :
    IsToken after ('"' :: (text ++ ['"'])) (.atom (.string (String.ofList text))) := by
  have closes : after.head? ≠ some '"' := by
    intro isHead
    have other := divides.all (· ≠ '"') (by decide) '"' isHead
    cases other
  have token := doubled text closes
  rwa [Text.doubled_of_not_mem plain] at token

end IsToken

end PointFree
