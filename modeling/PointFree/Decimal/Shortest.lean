import PointFree.Decimal.Dyadic

/-!
Contract: the shortest decimal that reads back as a given double.

The doubles next to `m * 2 ^ q` leave it an interval of reals that round to it,
whose ends belong to it exactly when `m` is even. `shortest` walks the decimal
grids, multiples of a power of ten, from the coarsest down. On the first grid
with a point in the interval one of the two neighbours of the value is such a
point; of two the nearer is taken, and `Tie` says which when they are equally
near. All comparisons are between integers.
-/

namespace PointFree.Decimal

/-- The choice between two decimals equally near the value. -/
inductive Tie where
  | away
  | even
deriving DecidableEq, Repr

/-- The decimal `digits * 10 ^ exponent`. -/
structure Digits where
  digits : Nat
  exponent : Int
deriving DecidableEq, Repr

/-- The interval of reals that round to a positive double, with the double
itself, in units of `2 ^ unit`. -/
structure Interval where
  low : Nat
  value : Nat
  high : Nat
  unit : Int
  closed : Bool
deriving DecidableEq, Repr

/-- The gap below a power of two is half the gap above it, except at the bottom
of the range, where the gaps are equal. -/
def Interval.around (mantissa : Nat) (exponent : Int) : Interval :=
  { low := if mantissa = Nat.pow 2 52 ∧ exponent ≠ -1074 then 4 * mantissa - 1 else 4 * mantissa - 2
    value := 4 * mantissa
    high := 4 * mantissa + 2
    unit := exponent - 2
    closed := mantissa % 2 == 0 }

/-- The point `count * scale` of a grid, against an interval whose unit is
`unit` on the same scale. -/
def Interval.holds (interval : Interval) (unit scale count : Nat) : Bool :=
  let point := count * scale
  let low := interval.low * unit
  let high := interval.high * unit
  if interval.closed then low ≤ point && point ≤ high else low < point && point < high

/-- The neighbours of the value on the grid of multiples of `10 ^ exponent`,
and of those in the interval the nearer. -/
def Interval.onGrid? (interval : Interval) (tie : Tie) (exponent : Int) : Option Digits :=
  let unit := Nat.pow 2 interval.unit.toNat * Nat.pow 10 (-exponent).toNat
  let scale := Nat.pow 2 (-interval.unit).toNat * Nat.pow 10 exponent.toNat
  let below := interval.value * unit / scale
  let above := below + 1
  let fitsBelow := below ≠ 0 && interval.holds unit scale below
  let fitsAbove := interval.holds unit scale above
  let gapBelow := interval.value * unit - below * scale
  let gapAbove := above * scale - interval.value * unit
  let takeBelow : Bool :=
    if gapBelow = gapAbove then
      match tie with
      | .away => false
      | .even => below % 2 == 0
    else gapBelow < gapAbove
  if fitsBelow && (takeBelow || !fitsAbove) then some ⟨below, exponent⟩
  else if fitsAbove then some ⟨above, exponent⟩
  else none

/-- The first grid with a point in the interval, of `grids` grids from
`exponent` down. -/
def Interval.coarsest (interval : Interval) (tie : Tie) : (grids : Nat) → (exponent : Int) → Digits
  | 0, exponent => ⟨0, exponent⟩
  | grids + 1, exponent =>
      match interval.onGrid? tie exponent with
      | some digits => digits
      | none => interval.coarsest tie grids (exponent - 1)

/-- A power of ten above the interval: 1233 / 4096 is the decimal logarithm of
two to five places, and the last summand makes up for the rounding. -/
def gridAbove (mantissa : Nat) (exponent : Int) : Int :=
  let binary : Int := (mantissa.log2 : Int) + exponent + 2
  Int.fdiv (binary * 1233) 4096 + 1

/-- Seventeen digits always tell a double from its neighbours, and the first
grid lies at most three places above the value. -/
def gridCount : Nat := 24

def shortest (tie : Tie) (mantissa : Nat) (exponent : Int) : Digits :=
  if mantissa = 0 then ⟨0, 0⟩
  else (Interval.around mantissa exponent).coarsest tie gridCount (gridAbove mantissa exponent)

end PointFree.Decimal
