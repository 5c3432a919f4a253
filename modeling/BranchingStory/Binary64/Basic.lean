/-!
# Binary floating point numbers of 64 bits

A number is its 64 bits. Every finite number is a whole count of units, one unit being the smallest
positive number `2^-1074`: sums are therefore exact in units and are rounded once, to the nearest
number and on a tie to the one with an even significand. Nothing here depends on the machine's own
arithmetic.
-/

namespace BranchingStory

/-- A 64-bit binary floating point number, given by its bits: sign, eleven bits of exponent and
fifty-two of fraction. -/
structure Binary64 where
  /-- The sign is the highest bit. -/
  bits : UInt64
  deriving DecidableEq, Repr

namespace Binary64

/-- The weight of the sign bit. -/
def signWeight : Nat := 1 <<< 63

/-- The weight of the lowest exponent bit. -/
def exponentWeight : Nat := 1 <<< 52

/-- The exponent field of infinities and of NaN. -/
def specialExponent : Nat := 2047

/-- The sign bit is set. -/
def negative (x : Binary64) : Bool := decide (signWeight ≤ x.bits.toNat)

/-- The number without its sign bit. -/
def magnitude (x : Binary64) : Nat := x.bits.toNat % signWeight

/-- The eleven exponent bits. -/
def exponentField (x : Binary64) : Nat := x.magnitude / exponentWeight

/-- The fifty-two fraction bits. -/
def fraction (x : Binary64) : Nat := x.magnitude % exponentWeight

/-- Not a number. -/
def isNaN (x : Binary64) : Bool := x.exponentField == specialExponent && x.fraction != 0

/-- Plus or minus infinity. -/
def isInfinite (x : Binary64) : Bool := x.exponentField == specialExponent && x.fraction == 0

/-- Neither infinite nor NaN. -/
def isFinite (x : Binary64) : Bool := x.exponentField != specialExponent

/-- Zero of either sign. -/
def isZero (x : Binary64) : Bool := x.magnitude == 0

/-- A finite number has magnitude `significand * 2 ^ scale` units. -/
def significand (x : Binary64) : Nat :=
  if x.exponentField = 0 then x.fraction else exponentWeight + x.fraction

/-- The power of two that multiplies the significand. -/
def scale (x : Binary64) : Nat := x.exponentField - 1

/-- The signed count of units of a finite number. -/
def units (x : Binary64) : Int :=
  let n : Nat := x.significand <<< x.scale
  if x.negative then -(n : Int) else (n : Int)

/-- The number with the given sign and magnitude bits. -/
def ofMagnitude (negative : Bool) (magnitude : Nat) : Binary64 :=
  ⟨UInt64.ofNat ((if negative then signWeight else 0) + magnitude)⟩

/-- Infinity of the given sign. -/
def infinity (negative : Bool) : Binary64 :=
  ofMagnitude negative (specialExponent * exponentWeight)

/-- Zero of the given sign. -/
def zero (negative : Bool) : Binary64 := ofMagnitude negative 0

/-- The NaN that arithmetic yields. -/
def nan : Binary64 := ofMagnitude false (specialExponent * exponentWeight + exponentWeight / 2)

/-- The whole number nearest to `num / den`; of two equally near the even one. -/
def roundHalfEven (num den : Nat) : Nat :=
  let whole := num / den
  let rest := num % den
  if 2 * rest < den then whole
  else if den < 2 * rest then whole + 1
  else whole + whole % 2

/-- The number nearest to `num / den` units, of two equally near the one whose significand is even;
infinity from the middle above the largest number on. The significand keeps its leading bit, which
adds one to the exponent field, so a significand that rounds up to `2 ^ 53` carries by itself. -/
def ofUnits (negative : Bool) (num den : Nat) : Binary64 :=
  let scale := (num / den).log2 - 52
  ofMagnitude negative
    (min (scale * exponentWeight + roundHalfEven num (den <<< scale))
      (specialExponent * exponentWeight))

/-- The number with the other sign. -/
def neg (x : Binary64) : Binary64 := ofMagnitude (!x.negative) x.magnitude

/-- The sum, rounded once. Opposite infinities have none; opposite numbers sum to plus zero and only
two minus zeros to minus zero. -/
def add (x y : Binary64) : Binary64 :=
  if x.isNaN || y.isNaN then nan
  else if x.isInfinite then
    if y.isInfinite && x.negative != y.negative then nan else x
  else if y.isInfinite then y
  else
    let sum := x.units + y.units
    if sum = 0 then zero (x.negative && y.negative)
    else ofUnits (decide (sum < 0)) sum.natAbs 1

/-- The difference, rounded once. -/
def sub (x y : Binary64) : Binary64 := x.add y.neg

/-- Numeric equality: the zeros are equal and NaN equals nothing. -/
def equals (x y : Binary64) : Bool :=
  !x.isNaN && !y.isNaN && (x.bits == y.bits || (x.isZero && y.isZero))

/-- The powers of ten. -/
def powerOfTen (exponent : Nat) : Nat := Nat.pow 10 exponent

/-- Any exponent above this makes every nonzero decimal infinite. -/
def largestDecimalExponent : Nat := 400

/-- The number nearest to `digits * 10 ^ exponent`. Exponents far beyond the range are decided
without the power: from `10 ^ 401` on all is infinite, and below `2 ^ -1076` all rounds to zero. -/
def ofDecimal (negative : Bool) (digits : Nat) (exponent : Int) : Binary64 :=
  if digits = 0 then zero negative
  else
    match exponent with
    | .ofNat e =>
      if largestDecimalExponent < e then infinity negative
      else ofUnits negative ((digits * powerOfTen e) <<< 1074) 1
    | .negSucc e =>
      if digits.log2 + 1077 ≤ 3 * (e + 1) then zero negative
      else ofUnits negative (digits <<< 1074) (powerOfTen (e + 1))

/-- The number nearest to an integer. -/
def ofInt (i : Int) : Binary64 := ofDecimal (decide (i < 0)) i.natAbs 0

/-- Numeric equality is symmetric. -/
theorem equals_comm (x y : Binary64) : x.equals y = y.equals x := by
  simp only [equals, Bool.beq_comm (a := x.bits), Bool.and_comm x.isZero,
    Bool.and_comm (!x.isNaN)]

/-- A number equals itself exactly when it is not NaN. -/
theorem equals_self (x : Binary64) : x.equals x = !x.isNaN := by simp [equals]

/-- Two numbers that equal a third one are equal. -/
theorem equals_trans {x y z : Binary64} (h : x.equals y = true) (k : y.equals z = true) :
    x.equals z = true := by
  have hbits : ∀ {a b : Binary64}, a.bits = b.bits → a = b := fun he =>
    congrArg Binary64.mk he
  simp only [equals, Bool.and_eq_true, Bool.or_eq_true, beq_iff_eq] at h k ⊢
  refine ⟨⟨h.1.1, k.1.2⟩, ?_⟩
  rcases h.2 with h | h
  · rw [hbits h]
    exact k.2
  · rcases k.2 with k | k
    · rw [← hbits k]
      exact .inr h
    · exact .inr ⟨h.1, k.2⟩

end Binary64

end BranchingStory
