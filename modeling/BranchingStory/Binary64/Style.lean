import BranchingStory.Binary64.Shortest

/-!
# Writing numbers

A style fixes what the digits alone leave open: which magnitudes are written positionally, whether a
whole number keeps a fraction digit, and the way of ties. All else is common: the sign comes first,
an exponent is written with its own sign and without leading zeros.
-/

namespace BranchingStory.Binary64

/-- How a finite number is written around its shortest digits. -/
structure Style where
  /-- Positional for these places of the decimal point. -/
  positional : Int → Bool
  /-- A whole number in positional form ends in `.0`. -/
  keepsFraction : Bool
  /-- The way of a tie between two shortest decimals. -/
  tie : Tie

/-- Digits without the zeros at their end, and how many those were. -/
def stripZeros (digits : List Char) : List Char × Nat :=
  let kept := (digits.reverse.dropWhile (· == '0')).reverse
  (kept, digits.length - kept.length)

/-- The digits around a decimal point that stands after the first `place` of them. -/
def positionalText (keepsFraction : Bool) (digits : List Char) (place : Int) : List Char :=
  match place with
  | .ofNat p =>
    if p = 0 then '0' :: '.' :: digits
    else if digits.length ≤ p then
      digits ++ List.replicate (p - digits.length) '0' ++
        (if keepsFraction then ['.', '0'] else [])
    else digits.take p ++ '.' :: digits.drop p
  | .negSucc p => '0' :: '.' :: (List.replicate (p + 1) '0' ++ digits)

/-- The digits with a point after the first one and the exponent behind them. -/
def exponentText (digits : List Char) (exponent : Int) : List Char :=
  let point :=
    match digits with
    | d :: e :: rest => d :: '.' :: e :: rest
    | other => other
  let sign := if exponent < 0 then '-' else '+'
  point ++ 'e' :: sign :: Nat.toDigits 10 exponent.natAbs

/-- The text of a finite number without its sign. -/
def Style.magnitudeText (style : Style) (x : Binary64) : List Char :=
  if x.isZero then
    if style.keepsFraction then ['0', '.', '0'] else ['0']
  else
    let decimal := x.shortest style.tie
    let (digits, zeros) := stripZeros (Nat.toDigits 10 decimal.digits)
    let place : Int := digits.length + zeros + decimal.exponent
    if style.positional place then positionalText style.keepsFraction digits place
    else exponentText digits (place - 1)

/-- The text of a finite number. -/
def Style.text (style : Style) (x : Binary64) : List Char :=
  if x.negative then '-' :: style.magnitudeText x else style.magnitudeText x

/-- The style of data text: positional from `0.00001` up to below `10 ^ 16`, always with a fraction
digit there, ties to the even digit. -/
def dataStyle : Style where
  positional place := decide (-5 < place) && decide (place ≤ 16)
  keepsFraction := true
  tie := .toEven

/-- The style for a reader's eye: never an exponent, no fraction for whole numbers, ties away from
zero. -/
def plainStyle : Style where
  positional _ := true
  keepsFraction := false
  tie := .away

/-- Any number for a reader's eye. -/
def plainText (x : Binary64) : List Char :=
  if x.isNaN then ['N', 'a', 'N']
  else if x.isInfinite then
    if x.negative then ['-', 'i', 'n', 'f'] else ['i', 'n', 'f']
  else plainStyle.text x

end BranchingStory.Binary64
