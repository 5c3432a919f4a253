import BranchingStory.Binary64.Basic

/-!
# Decimals in floating point steps

A decimal with few digits is read in floating point arithmetic: the digits become a number, and this
number is multiplied or divided by the number nearest to a power of ten. Each step rounds once. The
result is exact in all steps but the last as long as the digits fit a significand and the power of
ten is a small one; beyond that it may differ from the nearest number in its last bits.
-/

namespace BranchingStory.Binary64

/-- The product of two finite numbers, rounded once. -/
def mul (x y : Binary64) : Binary64 :=
  ofUnits (x.negative != y.negative) (x.units.natAbs * y.units.natAbs) (1 <<< 1074)

/-- The quotient of two finite numbers of which the second is not zero, rounded once. -/
def div (x y : Binary64) : Binary64 :=
  ofUnits (x.negative != y.negative) (x.units.natAbs <<< 1074) y.units.natAbs

/-- The largest exponent of a power of ten within the range. -/
def lastTen : Nat := 308

/-- The number nearest to a power of ten. -/
def tenTo (exponent : Nat) : Binary64 := ofDecimal false 1 exponent

/-- A finite number multiplied by a power of ten. Beyond the largest power all but zero is
infinite. -/
def scaleUp (x : Binary64) (exponent : Nat) : Binary64 :=
  if x.isZero then x
  else if exponent ≤ lastTen then x.mul (tenTo exponent)
  else infinity x.negative

/-- A finite number divided by a power of ten, the largest power first. A number below `2 ^ 64`
is zero once it has been divided by the largest power twice. -/
def scaleDown (x : Binary64) (exponent : Nat) : Binary64 :=
  if exponent ≤ lastTen then x.div (tenTo exponent)
  else if exponent ≤ 2 * lastTen then
    (x.div (tenTo lastTen)).div (tenTo (exponent - lastTen))
  else zero x.negative

/-- The number that 64 bits of digits come to under a power of ten, one step after the other. -/
def ofScaled (digits : UInt64) (exponent : Int) : Binary64 :=
  let x := ofDecimal false digits.toNat 0
  match exponent with
  | .ofNat e => x.scaleUp e
  | .negSucc e => x.scaleDown (e + 1)

end BranchingStory.Binary64
