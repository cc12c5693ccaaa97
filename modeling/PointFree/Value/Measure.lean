import PointFree.Decimal.Dyadic
import PointFree.Value

/-!
Contract: what a value can be taken for.

An index is a whole number that is not negative and an integer any whole
number; both are held in words of 64 bits and stop at the ends of their range.
-/

namespace PointFree

/-- The largest index, and the bounds of the integers. -/
def indexMax : Nat := Nat.pow 2 64 - 1

def integerMax : Int := (Nat.pow 2 63 : Int) - 1

def integerMin : Int := -(Nat.pow 2 63 : Int)

namespace Value

def toNumber : Value → Outcome Float
  | .number amount => .ok amount
  | other => refuse (.numberExpected other.kind)

def toCharacter : Value → Outcome Char
  | .character letter => .ok letter
  | other => refuse (.characterExpected other.kind)

def toIndex (value : Value) : Outcome Nat :=
  value.toNumber.bind fun amount =>
    match Decimal.toInt? amount with
    | none => refuse (.fractionalIndex amount)
    | some whole =>
        if whole < 0 then refuse (.negativeIndex amount) else .ok (min whole.toNat indexMax)

def toInteger (value : Value) : Outcome Int :=
  value.toNumber.bind fun amount =>
    match Decimal.toInt? amount with
    | none => refuse (.fractional amount)
    | some whole => .ok (max integerMin (min whole integerMax))

/-- An index that names one of `count` elements. -/
def toPlace (value : Value) (count : Nat) : Outcome Nat :=
  value.toIndex.bind fun place =>
    if place < count then .ok place else refuse (.indexPastCount place count)

end Value

end PointFree
