import PointFree.Decimal.Shortest

/-!
Contract: the text of a double.

A `Style` fixes every choice that is left once the digits are known: how signs
are written, what stands for infinity, whether a whole number keeps a point,
and where positional notation gives way to an exponent.
-/

namespace PointFree.Decimal

/-- A window of positional notation, by the place of the decimal point counted
from the first digit: from `least` up to and including `greatest`. -/
structure Window where
  least : Int
  greatest : Int
deriving DecidableEq, Repr

structure Style where
  minus : String
  signsZero : Bool
  infinity : String
  notANumber : String
  wholeSuffix : String
  tie : Tie
  positional : Option Window
deriving DecidableEq, Repr

/-- Every digit in its place, as in `-2.5`, `0.001` and `1000`. -/
def Style.plain : Style :=
  { minus := "-", signsZero := true, infinity := "inf", notANumber := "NaN",
    wholeSuffix := "", tie := .away, positional := none }

/-- As in `¯2.5`; a high minus belongs to the number, and zero has no sign. -/
def Style.display : Style :=
  { Style.plain with minus := "¯", signsZero := false, infinity := "∞" }

/-- As in `-2.5`, `1.0` and `1e+16`; what is no finite number is null. -/
def Style.document : Style :=
  { minus := "-", signsZero := true, infinity := "null", notANumber := "null",
    wholeSuffix := ".0", tie := .even, positional := some ⟨-4, 16⟩ }

def zeros (count : Nat) : String :=
  String.ofList (List.replicate count '0')

def Style.isPositional (style : Style) (point : Int) : Bool :=
  match style.positional with
  | none => true
  | some window => window.least ≤ point && point ≤ window.greatest

/-- Digits without an exponent. -/
def positionalText (wholeSuffix : String) (digits : List Char) (exponent : Int) : String :=
  let point : Int := digits.length + exponent
  if 0 ≤ exponent then
    String.ofList digits ++ zeros exponent.toNat ++ wholeSuffix
  else if 0 < point then
    String.ofList (digits.take point.toNat) ++ "." ++ String.ofList (digits.drop point.toNat)
  else
    "0." ++ zeros (-point).toNat ++ String.ofList digits

/-- One digit before the point and a signed exponent. -/
def exponentText (digits : List Char) (exponent : Int) : String :=
  let lead := String.ofList (digits.take 1)
  let tail := digits.drop 1
  let fraction := if tail.isEmpty then "" else "." ++ String.ofList tail
  let power : Int := digits.length + exponent - 1
  let sign := if power < 0 then "e-" else "e+"
  lead ++ fraction ++ sign ++ toString power.natAbs

def Style.magnitudeText (style : Style) (mantissa : Nat) (exponent : Int) : String :=
  if mantissa = 0 then "0" ++ style.wholeSuffix
  else
    let decimal := shortest style.tie mantissa exponent
    let digits := Nat.toDigits 10 decimal.digits
    if style.isPositional (digits.length + decimal.exponent) then
      positionalText style.wholeSuffix digits decimal.exponent
    else exponentText digits decimal.exponent

def Style.text (style : Style) (value : Float) : String :=
  match Dyadic.ofFloat? value with
  | some dyadic =>
      let signed := dyadic.negative && (style.signsZero || dyadic.mantissa ≠ 0)
      let sign := if signed then style.minus else ""
      sign ++ style.magnitudeText dyadic.mantissa dyadic.exponent
  | none =>
      if value.isNaN then style.notANumber
      else if style.infinity = "null" then style.infinity
      else if isNegative value then style.minus ++ style.infinity
      else style.infinity

end PointFree.Decimal
