import PointFree.Decimal.Notation
import PointFree.Decimal.Reading

/-!
Contract: JSON documents and their layout.

A number is kept as the double it denotes, together with the natural number it
was written as, if it was. The layout has one entry per line, two spaces for
each level, and writes an empty list in one piece.
-/

namespace PointFree

inductive Json where
  | null
  | truth (holds : Bool)
  | number (value : Float) (natural : Option Nat)
  | string (text : String)
  | list (items : List Json)
  | object (fields : List (String × Json))

namespace Json

def ofNat (natural : Nat) : Json :=
  .number natural.toFloat (some natural)

def ofFloat (value : Float) : Json :=
  .number value none

/-- The value of a field. -/
def field? (key : String) (fields : List (String × Json)) : Option Json :=
  fields.lookup key

/-- Gives a field a value; the last one given stands. -/
def setField (key : String) (value : Json) : List (String × Json) → List (String × Json)
  | [] => [(key, value)]
  | (other, found) :: rest =>
      if other = key then (key, value) :: rest else (other, found) :: setField key value rest

def hexadecimalPair (code : Nat) : String :=
  let digits := Nat.toDigits 16 code
  String.ofList (List.replicate (2 - digits.length) '0' ++ digits)

def escapedLetter (letter : Char) : String :=
  match letter with
  | '"' => "\\\""
  | '\\' => "\\\\"
  | '\x08' => "\\b"
  | '\x0c' => "\\f"
  | '\n' => "\\n"
  | '\r' => "\\r"
  | '\t' => "\\t"
  | _ =>
      if letter.toNat < 0x20 then "\\u00" ++ hexadecimalPair letter.toNat
      else String.singleton letter

def quoted (text : String) : String :=
  "\"" ++ String.join (text.toList.map escapedLetter) ++ "\""

def numberText (value : Float) : Option Nat → String
  | some natural => toString natural
  | none => Decimal.Style.document.text value

def margin (depth : Nat) : String :=
  String.ofList (List.replicate (2 * depth) ' ')

/-- Entries between brackets, each on a line of its own. -/
def bracketed (opening closing : String) (depth : Nat) (entries : List String) : String :=
  if entries.isEmpty then opening ++ closing
  else
    opening ++ "\n"
      ++ ",\n".intercalate (entries.map (margin (depth + 1) ++ ·))
      ++ "\n" ++ margin depth ++ closing

mutual

/-- The document as it stands at a depth. -/
def textAt (depth : Nat) : Json → String
  | .null => "null"
  | .truth holds => toString holds
  | .number value natural => numberText value natural
  | .string text => quoted text
  | .list items => bracketed "[" "]" depth (textsAt (depth + 1) items)
  | .object fields => bracketed "\x7b" "\x7d" depth (fieldTextsAt (depth + 1) fields)
termination_by structural json => json

def textsAt (depth : Nat) : List Json → List String
  | [] => []
  | item :: items => textAt depth item :: textsAt depth items
termination_by structural items => items

def fieldTextsAt (depth : Nat) : List (String × Json) → List String
  | [] => []
  | (key, value) :: fields =>
      (quoted key ++ ": " ++ textAt depth value) :: fieldTextsAt depth fields
termination_by structural fields => fields

end

def text (json : Json) : String :=
  textAt 0 json

end Json

end PointFree
