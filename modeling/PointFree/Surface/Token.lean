import PointFree.Decimal.Reading
import PointFree.Failure
import PointFree.Surface.Atom
import PointFree.Text.Blank
import PointFree.Text.Letter

/-!
Contract: the tokens of source text.

Spaces, tabs, carriage returns and comments separate tokens and are passed
over. Any other blank is a token of its own, since it may stand only where a
statement or a list element may begin. `Tokens` is the text as a sequence of
tokens that ends with the text or at the first place that no token fits.
-/

namespace PointFree

inductive Bracket where
  | paren
  | list
  | block
deriving DecidableEq, Repr

inductive Token where
  | atom (atom : Atom)
  | opening (bracket : Bracket)
  | closing (bracket : Bracket)
  /-- Ties its neighbours into one list. -/
  | tie
  | separator
  | blank

/-- A token in its place. -/
structure Placed where
  token : Token
  /-- The character it begins with. -/
  letter : Char
  start : Nat
  /-- Where the text before it ends, blanks at the end left out. -/
  trimmed : Nat

inductive Tokens where
  | done (position trimmed : Nat)
  | broken (position : Nat) (found : Option Char)
  | next (placed : Placed) (rest : Tokens)

/-- A token and the number of characters it takes beyond its first, or the
number of characters that precede the one that does not fit. -/
inductive Scan where
  | token (token : Token) (more : Nat)
  | broken (offset : Nat)

namespace Scan

def isDigit (letter : Char) : Bool :=
  '0' ≤ letter && letter ≤ '9'

def isNamePart (letter : Char) : Bool :=
  Text.isAlphanumeric letter || letter == '_'

/-- Digits after a point. A point without digits is left alone. -/
def fraction : List Char → List Char
  | '.' :: rest => rest.takeWhile isDigit
  | _ => []

/-- An exponent with its digits, or nothing. -/
def exponent : List Char → Option (Bool × List Char)
  | letter :: '¯' :: rest =>
      let digits := rest.takeWhile isDigit
      if (letter == 'e' || letter == 'E') && !digits.isEmpty then some (true, digits) else none
  | letter :: rest =>
      let digits := rest.takeWhile isDigit
      if (letter == 'e' || letter == 'E') && !digits.isEmpty then some (false, digits) else none
  | [] => none

def fractionWidth (digits : List Char) : Nat :=
  if digits.isEmpty then 0 else digits.length + 1

def exponentWidth : Option (Bool × List Char) → Nat
  | none => 0
  | some (below, digits) => digits.length + (if below then 2 else 1)

/-- A decimal and the number of characters it takes. -/
def numeral (negative : Bool) (letters : List Char) : Decimal.Numeral × Nat :=
  let whole := letters.takeWhile isDigit
  let rest := letters.drop whole.length
  let digits := fraction rest
  let power := exponent (rest.drop (fractionWidth digits))
  (⟨negative, whole, digits, power⟩,
    whole.length + fractionWidth digits + exponentWidth power)

/-- The double nearest to the circumference of a circle of diameter one. -/
def pi : Float := 3.141592653589793

def ofNumber (number : Float) (width : Nat) : Scan :=
  .token (.atom (.number number)) (width - 1)

/-- A number after `sign` characters that give its sign. -/
def number (sign : Nat) (letters : List Char) : Scan :=
  let negative := 0 < sign
  match letters with
  | '∞' :: _ => ofNumber (Decimal.signed negative Decimal.infinity) (sign + 1)
  | 'π' :: _ => ofNumber (Decimal.signed negative pi) (sign + 1)
  | letter :: _ =>
      if isDigit letter then
        let read := numeral negative letters
        ofNumber read.1.rounded (sign + read.2)
      else .broken sign
  | [] => .broken sign

def character : List Char → Scan
  | letter :: '\'' :: _ => .token (.atom (.character letter)) 2
  | _ :: _ => .broken 2
  | [] => .broken 1

/-- The text up to the closing quote, with the number of characters read. A
quote written twice belongs to the text. -/
def quotedText : List Char → Option (List Char × Nat)
  | '"' :: '"' :: rest => (quotedText rest).map fun found => ('"' :: found.1, found.2 + 2)
  | '"' :: _ => some ([], 1)
  | letter :: rest => (quotedText rest).map fun found => (letter :: found.1, found.2 + 1)
  | [] => none

def string (letters : List Char) : Scan :=
  match quotedText letters with
  | some found => .token (.atom (.string (String.ofList found.1))) found.2
  | none => .broken 0

/-- A name of the host, after the sign that marks it. -/
def system : List Char → Scan
  | letter :: rest =>
      if Text.isAlphabetic letter then
        let more := rest.takeWhile isNamePart
        .token (.atom (.system (String.ofList (letter :: more)))) (more.length + 1)
      else .broken 1
  | [] => .broken 1

def name (letter : Char) (rest : List Char) : Scan :=
  let more := rest.takeWhile isNamePart
  .token (.atom (.name (String.ofList (letter :: more)))) more.length

/-- A glyph that stands for itself. -/
def glyph (letter : Char) : Scan :=
  match OneModifier.ofGlyph? letter, TwoModifier.ofGlyph? letter,
      Primitive.ofGlyph? letter with
  | some modifier, _, _ => .token (.atom (.oneModifier modifier)) 0
  | none, some modifier, _ => .token (.atom (.twoModifier modifier)) 0
  | none, none, some primitive => .token (.atom (.primitive primitive)) 0
  | none, none, none =>
      if Text.isBlank letter then .token .blank 0 else .broken 0

/-- The token that begins with a character. -/
def ofLetter (letter : Char) (rest : List Char) : Scan :=
  match letter with
  | '(' => .token (.opening .paren) 0
  | ')' => .token (.closing .paren) 0
  | '⟨' => .token (.opening .list) 0
  | '⟩' => .token (.closing .list) 0
  | '\x7b' => .token (.opening .block) 0
  | '\x7d' => .token (.closing .block) 0
  | '⋄' | '◊' | ',' | '\n' => .token .separator 0
  | '‿' => .token .tie 0
  | '\'' => character rest
  | '"' => string rest
  | '𝕩' => .token (.atom (.implicit .right .data)) 0
  | '𝕏' => .token (.atom (.implicit .right .function)) 0
  | '𝕨' => .token (.atom (.implicit .left .data)) 0
  | '𝕎' => .token (.atom (.implicit .left .function)) 0
  | '𝕤' => .token (.atom (.implicit .this .data)) 0
  | '𝕊' => .token (.atom (.implicit .this .function)) 0
  | '•' => system rest
  | '←' => .token (.atom .define) 0
  | '↩' => .token (.atom .assign) 0
  | '?' => .token (.atom .guard) 0
  | '¯' => number 1 rest
  | '∞' | 'π' => number 0 (letter :: rest)
  | _ =>
      if isDigit letter then number 0 (letter :: rest)
      else if Text.isAlphabetic letter then name letter rest
      else glyph letter

end Scan

def isGap (letter : Char) : Bool :=
  letter == ' ' || letter == '\t' || letter == '\r'

/-- Reads tokens from a position on, after passing over the rest of the token or
comment before. -/
def Tokens.ofLetters (skip position trimmed : Nat) : List Char → Tokens
  | [] => .done position trimmed
  | letter :: rest =>
      let after := position + letter.utf8Size
      let reached := if Text.isBlank letter then trimmed else after
      match skip with
      | skip + 1 => Tokens.ofLetters skip after reached rest
      | 0 =>
          if isGap letter then Tokens.ofLetters 0 after reached rest
          else if letter = '#' then
            Tokens.ofLetters (rest.takeWhile (· ≠ '\n')).length after reached rest
          else
            match Scan.ofLetter letter rest with
            | .token token more =>
                .next ⟨token, letter, position, trimmed⟩
                  (Tokens.ofLetters more after reached rest)
            | .broken offset =>
                .broken (position + byteLength ((letter :: rest).take offset))
                  (letter :: rest)[offset]?

end PointFree
