import PointFree.Json

/-!
Contract: the tokens of JSON text.

Everything is strict: a string holds no raw control character and no half of a
surrogate pair, a number has digits wherever the grammar asks for them and is
in the range of doubles, and nothing but the four blanks stands between tokens.
-/

namespace PointFree.Json

inductive Token where
  | openList
  | closeList
  | openObject
  | closeObject
  | comma
  | colon
  | string (text : String)
  | value (value : Json)

/-- Part of a string: a character, or half of one. -/
inductive Piece where
  | letter (letter : Char)
  | half (unit : Nat)
deriving DecidableEq, Repr

def hexadecimalDigit? (letter : Char) : Option Nat :=
  if '0' ≤ letter ∧ letter ≤ '9' then some (letter.toNat - '0'.toNat)
  else if 'a' ≤ letter ∧ letter ≤ 'f' then some (letter.toNat - 'a'.toNat + 10)
  else if 'A' ≤ letter ∧ letter ≤ 'F' then some (letter.toNat - 'A'.toNat + 10)
  else none

/-- The code unit that four digits spell. -/
def codeUnit? (first second third fourth : Char) : Option Nat := do
  let a ← hexadecimalDigit? first
  let b ← hexadecimalDigit? second
  let c ← hexadecimalDigit? third
  let d ← hexadecimalDigit? fourth
  return ((a * 16 + b) * 16 + c) * 16 + d

def pieceOfUnit (unit : Nat) : Piece :=
  if 0xD800 ≤ unit ∧ unit < 0xE000 then .half unit else .letter (Char.ofNat unit)

/-- The character that an escape of one letter stands for. -/
def shortEscape? : Char → Option Char
  | '"' => some '"'
  | '\\' => some '\\'
  | '/' => some '/'
  | 'b' => some '\x08'
  | 'f' => some '\x0c'
  | 'n' => some '\n'
  | 'r' => some '\r'
  | 't' => some '\t'
  | _ => none

/-- The pieces up to the closing quote, with the number of characters read. -/
def pieces : List Char → Option (List Piece × Nat)
  | [] => none
  | '"' :: _ => some ([], 1)
  | '\\' :: 'u' :: first :: second :: third :: fourth :: rest => do
      let unit ← codeUnit? first second third fourth
      let found ← pieces rest
      return (pieceOfUnit unit :: found.1, found.2 + 6)
  | '\\' :: letter :: rest => do
      let escaped ← shortEscape? letter
      let found ← pieces rest
      return (.letter escaped :: found.1, found.2 + 2)
  | letter :: rest =>
      if letter.toNat < 0x20 ∨ letter = '\\' then none
      else do
        let found ← pieces rest
        return (.letter letter :: found.1, found.2 + 1)

def isHighHalf (unit : Nat) : Bool :=
  0xD800 ≤ unit && unit < 0xDC00

/-- Puts halves together; each must have its partner next to it. -/
def joinPieces : List Piece → Option (List Char)
  | [] => some []
  | .letter letter :: rest => (joinPieces rest).map (letter :: ·)
  | .half high :: .half low :: rest =>
      if isHighHalf high && !isHighHalf low then
        (joinPieces rest).map
          (Char.ofNat (0x10000 + (high - 0xD800) * 0x400 + (low - 0xDC00)) :: ·)
      else none
  | .half _ :: _ => none

/-- A string after its opening quote. -/
def scanString (letters : List Char) : Option (Token × Nat) := do
  let found ← pieces letters
  let text ← joinPieces found.1
  return (.string (String.ofList text), found.2)

def isDigit (letter : Char) : Bool :=
  '0' ≤ letter && letter ≤ '9'

/-- A whole part: a zero, or digits that begin with none. -/
def wholePart : List Char → List Char
  | '0' :: _ => ['0']
  | letters => letters.takeWhile isDigit

def fractionPart : List Char → List Char
  | '.' :: rest => rest.takeWhile isDigit
  | _ => []

/-- The sign of an exponent and the width of the sign. -/
def exponentSign : List Char → Bool × Nat
  | '-' :: _ => (true, 1)
  | '+' :: _ => (false, 1)
  | _ => (false, 0)

def exponentPart : List Char → Option ((Bool × List Char) × Nat)
  | letter :: rest =>
      if letter = 'e' ∨ letter = 'E' then
        let sign := exponentSign rest
        let digits := (rest.drop sign.2).takeWhile isDigit
        if digits.isEmpty then none else some ((sign.1, digits), 1 + sign.2 + digits.length)
      else none
  | [] => none

/-- A number, with the number of characters read. -/
def scanNumber (letters : List Char) : Option (Token × Nat) :=
  let negative : Bool := letters.head? = some '-'
  let sign := if negative then 1 else 0
  let whole := wholePart (letters.drop sign)
  let rest := letters.drop (sign + whole.length)
  let fraction := fractionPart rest
  let fractionWidth := if fraction.isEmpty then 0 else fraction.length + 1
  let power := exponentPart (rest.drop fractionWidth)
  let width := sign + whole.length + fractionWidth + (power.map Prod.snd).getD 0
  if whole.isEmpty then none
  else
    (Decimal.Numeral.scaled ⟨negative, whole, fraction, power.map Prod.fst⟩).map fun denoted =>
      (.value (.number denoted.value denoted.natural), width)

/-- The token that a text begins with, and the number of characters it takes. -/
def scan : List Char → Option (Token × Nat)
  | '[' :: _ => some (.openList, 1)
  | ']' :: _ => some (.closeList, 1)
  | '\x7b' :: _ => some (.openObject, 1)
  | '\x7d' :: _ => some (.closeObject, 1)
  | ',' :: _ => some (.comma, 1)
  | ':' :: _ => some (.colon, 1)
  | '"' :: rest => (scanString rest).map fun found => (found.1, found.2 + 1)
  | 'n' :: 'u' :: 'l' :: 'l' :: _ => some (.value .null, 4)
  | 't' :: 'r' :: 'u' :: 'e' :: _ => some (.value (.truth true), 4)
  | 'f' :: 'a' :: 'l' :: 's' :: 'e' :: _ => some (.value (.truth false), 5)
  | letters => scanNumber letters

def isGap (letter : Char) : Bool :=
  letter == ' ' || letter == '\n' || letter == '\t' || letter == '\r'

/-- The tokens of a text, after passing over the rest of the one before. -/
def tokensFrom (skip : Nat) : List Char → Option (List Token)
  | [] => some []
  | letter :: rest =>
      match skip with
      | skip + 1 => tokensFrom skip rest
      | 0 =>
          if isGap letter then tokensFrom 0 rest
          else
            match scan (letter :: rest) with
            | none => none
            | some (token, width) => (tokensFrom (width - 1) rest).map (token :: ·)

def tokens (text : String) : Option (List Token) :=
  tokensFrom 0 text.toList

end PointFree.Json
