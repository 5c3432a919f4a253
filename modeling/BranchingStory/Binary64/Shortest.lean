import BranchingStory.Binary64.Basic

/-!
# Shortest decimals

The decimals that round to a finite number fill an interval around it, whose ends belong to it
exactly when the significand is even. The digits of a number are those of the coarsest decimal grid
with a point in that interval; of two such points on one grid the nearer is taken, and an exact tie
is left to the caller. Seventeen digits always suffice.
-/

namespace BranchingStory.Binary64

/-- The way of an exact tie between two neighbouring decimals. -/
inductive Tie where
  /-- To the decimal with an even last digit. -/
  | toEven
  /-- To the decimal of larger magnitude. -/
  | away
  deriving DecidableEq, Repr

/-- The decimal `digits * 10 ^ exponent`. -/
structure Decimal where
  /-- The digits as one whole number. -/
  digits : Nat
  /-- The power of ten that scales them. -/
  exponent : Int
  deriving DecidableEq, Repr

/-- The interval that rounds to a finite number, in quarters of a unit of `2 ^ -1074`. -/
structure Interval where
  /-- The lower end. -/
  low : Nat
  /-- The number itself. -/
  middle : Nat
  /-- The upper end. -/
  high : Nat
  /-- The ends belong to the interval. -/
  closed : Bool

/-- Half the way to the neighbours on both sides. Below a power of two the numbers lie twice as
close. -/
def interval (x : Binary64) : Interval :=
  let step := 1 <<< x.scale
  let below := if x.fraction = 0 ∧ 1 < x.exponentField then step else 2 * step
  { low := 4 * x.significand * step - below
    middle := 4 * x.significand * step
    high := 4 * x.significand * step + 2 * step
    closed := x.significand % 2 == 0 }

/-- The number of quarter units in one. -/
def quartersOfOne : Nat := 1 <<< 1076

/-- The least decimal exponent considered, low enough to leave digits of every number in sight. -/
def decimalDepth : Nat := 400

/-- The place of the decimal point: the exponent `e` with `10 ^ (e - 1) ≤ value < 10 ^ e`. -/
def pointPlace (middle : Nat) : Int :=
  ((Nat.toDigits 10 (middle * powerOfTen decimalDepth / quartersOfOne)).length : Int) - decimalDepth

/-- The factors that bring quarter units and the grid `10 ^ exponent` to one scale. -/
def gridFactors (exponent : Int) : Nat × Nat :=
  match exponent with
  | .ofNat e => (1, quartersOfOne * powerOfTen e)
  | .negSucc e => (powerOfTen (e + 1), quartersOfOne)

/-- The point of the grid `10 ^ exponent` to be taken for the interval, if it has one. -/
def gridPoint? (tie : Tie) (i : Interval) (exponent : Int) : Option Nat :=
  let (factor, unit) := gridFactors exponent
  let inside (c : Nat) : Bool :=
    if i.closed then decide (i.low * factor ≤ c * unit) && decide (c * unit ≤ i.high * factor)
    else decide (i.low * factor < c * unit) && decide (c * unit < i.high * factor)
  let lower := i.middle * factor / unit
  let twice := 2 * (i.middle * factor % unit)
  let upperNearer :=
    decide (unit < twice) || (twice == unit && (tie == .away || lower % 2 == 1))
  match inside lower, inside (lower + 1) with
  | true, true => some (if upperNearer then lower + 1 else lower)
  | true, false => some lower
  | false, true => some (lower + 1)
  | false, false => none

/-- The shortest decimal that rounds to the magnitude of a finite number other than zero. -/
def shortest (tie : Tie) (x : Binary64) : Decimal :=
  let i := x.interval
  let place := pointPlace i.middle
  let hit (count : Nat) : Option Decimal :=
    (gridPoint? tie i (place - count)).map fun c => ⟨c, place - count⟩
  ((List.range' 1 17).findSome? hit).getD ⟨0, 0⟩

end BranchingStory.Binary64
