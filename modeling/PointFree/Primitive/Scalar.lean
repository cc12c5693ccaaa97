import PointFree.Value.Equality
import PointFree.Value.Measure

/-!
Contract: the scalar rules behind the pervasive primitives.

Each rule takes values that are no arrays. Arguments are named by their side:
`left` stands before the glyph and `right` after it, and the left one is
examined first.
-/

namespace PointFree.Scalar

def onNumber (function : Float → Float) (right : Value) : Outcome Value :=
  right.toNumber.map fun number => .number (function number)

def onNumbers (function : Float → Float → Float) (left right : Value) : Outcome Value := do
  let first ← left.toNumber
  let second ← right.toNumber
  return .number (function first second)

/-- Zero and what is no number are their own sign. -/
def sign (number : Float) : Float :=
  if number > 0.0 then 1.0 else if number < 0.0 then -1.0 else number

def reciprocal (number : Float) : Float :=
  1.0 / number

def complement (number : Float) : Float :=
  1.0 - number

def square (number : Float) : Float :=
  number * number

def logarithm (base number : Float) : Float :=
  Float.log number / Float.log base

def root (degree number : Float) : Float :=
  Float.pow number (1.0 / degree)

/-- The remainder has the sign of the modulus; a modulus of zero changes nothing. -/
def modulus (modulus number : Float) : Float :=
  if modulus == 0.0 then number else number - modulus * Float.floor (number / modulus)

/-- A NaN gives way to the other argument, and of equals the left one stands. -/
def minimum (left right : Float) : Float :=
  if left.isNaN then right else if right.isNaN then left
  else if right < left then right else left

def maximum (left right : Float) : Float :=
  if left.isNaN then right else if right.isNaN then left
  else if left < right then right else left

def disjunction (left right : Float) : Float :=
  left + right - left * right

/-- Number of steps from `right` up to `left`, both counted. -/
def extent (left right : Float) : Float :=
  1.0 + left - right

/-- The character at a code point, if there is one. -/
def characterAt? (code : Int) : Option Char :=
  if h : 0 ≤ code ∧ code.toNat.isValidChar then some (Char.ofNatAux code.toNat h.2) else none

def shift (letter : Char) (distance : Float) : Outcome Value :=
  match Decimal.toInt? distance with
  | none => refuse (.fractionalShift distance)
  | some whole =>
      let code : Int := letter.toNat + max integerMin (min whole integerMax)
      match characterAt? code with
      | some found => .ok (.character found)
      | none => refuse (.notACharacter code)

def add (left right : Value) : Outcome Value :=
  match left, right with
  | .number first, .number second => .ok (.number (first + second))
  | .character letter, .number distance => shift letter distance
  | .number distance, .character letter => shift letter distance
  | _, _ => refuse (.unaddable left.kind right.kind)

/-- Two characters are as far apart as their code points. -/
def subtract (left right : Value) : Outcome Value :=
  match left, right with
  | .number first, .number second => .ok (.number (first - second))
  | .character letter, .number distance => shift letter (-distance)
  | .character first, .character second =>
      .ok (.number (first.toNat.toFloat - second.toNat.toFloat))
  | _, _ => refuse (.unsubtractable left.kind right.kind)

/-- What has to be added to `left` to give `right`. -/
def unadd (left right : Value) : Outcome Value :=
  subtract right left

/-- Numbers stand before characters. -/
def compare (left right : Value) : Outcome Ordering :=
  match left, right with
  | .number first, .number second =>
      if first < second then .ok .lt
      else if second < first then .ok .gt
      else if first == second then .ok .eq
      else refuse .incomparableNumber
  | .character first, .character second => .ok (Ord.compare first.toNat second.toNat)
  | .number _, .character _ => .ok .lt
  | .character _, .number _ => .ok .gt
  | _, _ => refuse (.incomparable left.kind right.kind)

def compares (holds : Ordering → Bool) (left right : Value) : Outcome Value :=
  (compare left right).map fun order => .ofBool (holds order)

def equals (left right : Value) : Outcome Value :=
  .ok (.ofBool (left.sameLeaf right))

def differs (left right : Value) : Outcome Value :=
  .ok (.ofBool (!left.sameLeaf right))

end PointFree.Scalar
