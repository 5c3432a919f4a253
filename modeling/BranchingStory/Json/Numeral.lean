import BranchingStory.Binary64.Scaled
import BranchingStory.Json.Basic

/-!
# Number text

A numeral is an optional minus sign, whole digits without a superfluous leading zero, an optional
fraction and an optional exponent. Written without fraction and exponent it is a whole number as
long as 64 bits hold it; `-0` and everything else is a floating point number, and a numeral beyond
all of those has no value. The digits of a floating point number are gathered as long as 64 bits
hold them, the rest counts for nothing but its places before the point, and what has been gathered
is scaled by a power of ten.
-/

namespace BranchingStory.Json

/-- The parts of a number's text. -/
structure Numeral where
  /-- There is a minus sign. -/
  negative : Bool
  /-- The digits before the point. -/
  whole : List Char
  /-- The digits behind the point; empty when there is no point. -/
  fraction : List Char
  /-- The exponent, if one is written. -/
  exponent : Option Int
  deriving DecidableEq, Repr

/-- The number that some digits and one more stand for. -/
def withDigit (n : Nat) (d : Char) : Nat := 10 * n + (d.toNat - '0'.toNat)

/-- The number that decimal digits stand for. -/
def digitsValue (digits : List Char) : Nat := digits.foldl withDigit 0

/-- Digits gathered as long as 64 bits hold them, and those that are left. -/
def gather (n : Nat) : List Char → Nat × List Char
  | [] => (n, [])
  | d :: rest => if withDigit n d < UInt64.size then gather (withDigit n d) rest else (n, d :: rest)

/-- Digits that may stand before the point: some, and a leading zero only alone. -/
def isWhole : List Char → Bool
  | [] => false
  | ['0'] => true
  | d :: _ => d != '0'

/-- The exponent from behind its letter on; nothing may follow it. -/
def exponentOf? (text : List Char) : Option Int :=
  let (negative, digits) : Bool × List Char :=
    match text with
    | '-' :: rest => (true, rest)
    | '+' :: rest => (false, rest)
    | rest => (false, rest)
  if digits.isEmpty || !digits.all Char.isDigit then none
  else some (if negative then -(digitsValue digits : Int) else digitsValue digits)

/-- What follows the last digit of a mantissa: nothing, or an exponent. -/
def withExponent? (negative : Bool) (whole fraction : List Char) :
    List Char → Option Numeral
  | [] => some ⟨negative, whole, fraction, none⟩
  | c :: rest =>
    if c = 'e' ∨ c = 'E' then
      (exponentOf? rest).map fun e => ⟨negative, whole, fraction, some e⟩
    else none

/-- The numeral without its sign. -/
def unsignedNumeral? (negative : Bool) (text : List Char) : Option Numeral :=
  let whole := text.takeWhile Char.isDigit
  if !isWhole whole then none
  else
    match text.dropWhile Char.isDigit with
    | '.' :: rest =>
      let fraction := rest.takeWhile Char.isDigit
      if fraction.isEmpty then none
      else withExponent? negative whole fraction (rest.dropWhile Char.isDigit)
    | rest => withExponent? negative whole [] rest

/-- The numeral that the whole text is. -/
def numeral? : List Char → Option Numeral
  | '-' :: rest => unsignedNumeral? true rest
  | text => unsignedNumeral? false text

/-- The number that a numeral stands for in floating point, unless that is infinite. -/
def Numeral.float? (n : Numeral) : Option Number :=
  let (digits, more) := gather 0 n.whole
  let (digits, unused) := gather digits n.fraction
  let places : Int := n.fraction.length - unused.length
  let x := Binary64.ofScaled (UInt64.ofNat digits) (n.exponent.getD 0 + more.length - places)
  if x.isFinite then some (.float (if n.negative then x.neg else x)) else none

/-- The number that a numeral stands for. -/
def Numeral.value? (n : Numeral) : Option Number :=
  if n.fraction.isEmpty && n.exponent.isNone then
    let size := digitsValue n.whole
    let i : Int := if n.negative then -(size : Int) else size
    if Int64.minValue.toInt ≤ i ∧ i < UInt64.size ∧ ¬ (n.negative = true ∧ size = 0) then
      some (.integer i)
    else n.float?
  else n.float?

end BranchingStory.Json
