/-!
Contract: the exact value of a double.

A finite double is an integer times a power of two. `Dyadic.ofFloat?` reads
that pair off the sign, exponent and fraction fields, so that every question
about the value (is it whole, which integer is it, which decimals round to it)
is a question about integers.
-/

namespace PointFree.Decimal

/-- The value `mantissa * 2 ^ exponent`, below zero when `negative`. -/
structure Dyadic where
  negative : Bool
  mantissa : Nat
  exponent : Int
deriving DecidableEq, Repr

/-- Nothing for the infinities and for a double that is not a number. -/
def Dyadic.ofFloat? (value : Float) : Option Dyadic :=
  let bits := value.toBits.toNat
  let negative : Bool := bits / Nat.pow 2 63 == 1
  let biased : Nat := bits / Nat.pow 2 52 % Nat.pow 2 11
  let fraction : Nat := bits % Nat.pow 2 52
  if biased = 2047 then none
  else if biased = 0 then some ⟨negative, fraction, -1074⟩
  else some ⟨negative, fraction + Nat.pow 2 52, (biased : Int) - 1075⟩

/-- The absolute value, when it is an integer. -/
def Dyadic.magnitude? (value : Dyadic) : Option Nat :=
  if 0 ≤ value.exponent then some (value.mantissa * Nat.pow 2 value.exponent.toNat)
  else
    let scale := Nat.pow 2 (-value.exponent).toNat
    if value.mantissa % scale = 0 then some (value.mantissa / scale) else none

def Dyadic.toInt? (value : Dyadic) : Option Int :=
  value.magnitude?.map fun magnitude =>
    if value.negative then -(magnitude : Int) else (magnitude : Int)

/-- The integer a double denotes, if it denotes one. -/
def toInt? (value : Float) : Option Int :=
  (Dyadic.ofFloat? value).bind Dyadic.toInt?

def isNegative (value : Float) : Bool :=
  value.toBits.toNat / Nat.pow 2 63 == 1

end PointFree.Decimal
