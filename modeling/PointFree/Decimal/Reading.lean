import PointFree.Decimal.Dyadic

/-!
Contract: the double a decimal denotes, under two rules.

`nearest` rounds the exact value of the decimal once, to the nearest double.
`scaled` is the rule of the program documents: the digits are gathered into a
word of 64 bits, which is rounded first and then multiplied or divided by
powers of ten, each step rounded on its own. The two agree on short decimals
and part on long ones.
-/

namespace PointFree.Decimal

/-- A decimal beyond this many places above the point overflows every double,
and one as far below vanishes. -/
def placeLimit : Nat := 400

def decimalLength (digits : Nat) : Nat :=
  (Nat.toDigits 10 digits).length

def infinity : Float := 1.0 / 0.0

def notANumber : Float := 0.0 / 0.0

/-- `digits * 10 ^ exponent`, rounded to the nearest double. -/
def nearest (digits : Nat) (exponent : Int) : Float :=
  if digits = 0 then 0.0
  else
    let place : Int := decimalLength digits + exponent
    if (placeLimit : Int) < place then infinity
    else if place < -(placeLimit : Int) then 0.0
    else Float.ofScientific digits (exponent < 0) exponent.natAbs

def natOfDigits (digits : List Char) : Nat :=
  digits.foldl (fun total digit => total * 10 + (digit.toNat - '0'.toNat)) 0

/-- The largest word. -/
def wordMax : Nat := Nat.pow 2 64 - 1

def powerOfTen (exponent : Nat) : Float :=
  Float.ofScientific 1 false exponent

/-- Gathers digits until the next one would overflow a word, and says how many
are left. -/
def gather (total : Nat) : List Char → Nat × List Char
  | [] => (total, [])
  | digit :: rest =>
      let next := total * 10 + (digit.toNat - '0'.toNat)
      if next ≤ wordMax then gather next rest else (total, digit :: rest)

/-- Brings `value * 10 ^ exponent` into range by steps of at most 308 places;
nothing when it overflows. -/
def scaleBy : (steps : Nat) → (value : Float) → (exponent : Int) → Option Float
  | 0, value, _ => some value
  | steps + 1, value, exponent =>
      if exponent.natAbs ≤ 308 then
        if 0 ≤ exponent then
          let product := value * powerOfTen exponent.natAbs
          if product.isInf then none else some product
        else some (value / powerOfTen exponent.natAbs)
      else if value == 0.0 then some value
      else if 0 ≤ exponent then none
      else scaleBy steps (value / powerOfTen 308) (exponent + 308)

/-- Four divisions by `10 ^ 308` leave nothing of a word. -/
def scaleSteps : Nat := 6

/-- The parts of a written number. -/
structure Numeral where
  negative : Bool
  whole : List Char
  fraction : List Char
  exponent : Option (Bool × List Char)
deriving DecidableEq, Repr

/-- What a numeral denotes: a natural number that fits a word when it is
written as one, and a double in every case. -/
structure Denoted where
  value : Float
  natural : Option Nat

def signed (negative : Bool) (value : Float) : Float :=
  if negative then -value else value

/-- The written exponent as an integer. -/
def writtenExponent : Option (Bool × List Char) → Int
  | none => 0
  | some (below, digits) =>
      if below then -(natOfDigits digits : Int) else (natOfDigits digits : Int)

/-- The nearest double to the value as it is written. -/
def Numeral.rounded (numeral : Numeral) : Float :=
  signed numeral.negative
    (nearest (natOfDigits (numeral.whole ++ numeral.fraction))
      (writtenExponent numeral.exponent - numeral.fraction.length))

/-- Exponents are counted in 32 bits. -/
def exponentMax : Nat := Nat.pow 2 31 - 1

def clampExponent (exponent : Int) : Int :=
  max (-(Nat.pow 2 31 : Int)) (min exponent (exponentMax : Int))

/-- The value of `significand * 10 ^ places` under a written exponent. -/
def scaledBy (significand : Nat) (places : Int) : Option (Bool × List Char) → Option Float
  | none => scaleBy scaleSteps significand.toFloat places
  | some (below, digits) =>
      let exponent := natOfDigits digits
      if exponentMax < exponent then
        if significand ≠ 0 && !below then none else some 0.0
      else
        let shift : Int := if below then -(exponent : Int) else (exponent : Int)
        scaleBy scaleSteps significand.toFloat (clampExponent (places + shift))

/-- Nothing for a number out of range. -/
def Numeral.scaled (numeral : Numeral) : Option Denoted :=
  let gathered := gather 0 numeral.whole
  if gathered.2.isEmpty && numeral.fraction.isEmpty && numeral.exponent.isNone then
    let natural := if numeral.negative then none else some gathered.1
    some ⟨signed numeral.negative gathered.1.toFloat, natural⟩
  else
    let extended := gather gathered.1 numeral.fraction
    let places : Int :=
      (gathered.2.length : Int) - ((numeral.fraction.length : Int) - extended.2.length)
    (scaledBy extended.1 places numeral.exponent).map fun value =>
      ⟨signed numeral.negative value, none⟩

end PointFree.Decimal
