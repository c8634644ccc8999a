/-!
# Binary floating-point numbers of 64 bits

A finite number is a sign and a significand times a power of two, where the significand has 53 bits
unless the exponent is the least one, -1074. Numbers are made from exact fractions by rounding to
the nearest one, and of two that are equally near to the one with the even significand
(`Binary64.ofFraction`). All arithmetic is that of natural numbers and integers.
-/

set_option autoImplicit false
set_option relaxedAutoImplicit false

namespace WatTypes

/-- A floating-point number of 64 bits. -/
inductive Binary64 where
  /-- A finite number: the significand times two to the power of the exponent. -/
  | finite (isNegative : Bool) (significand : Nat) (exponent : Int)
  /-- An infinity. -/
  | infinite (isNegative : Bool)
  /-- Not a number. -/
  | nan
deriving DecidableEq, Repr

namespace Binary64

/-- The nearest integer to a fraction; of two the even one. -/
def roundedQuotient (numerator denominator : Nat) : Nat :=
  let floor := numerator / denominator
  let twiceRest := 2 * (numerator % denominator)
  if twiceRest < denominator ∨ (twiceRest = denominator ∧ floor % 2 = 0) then floor else floor + 1

/-- A base to the power of an exponent, one if the exponent is negative. -/
def raised (base : Nat) (exponent : Int) : Nat := Nat.pow base exponent.toNat

/-- The least number of more than 53 bits. -/
def significandBound : Nat := 9007199254740992

/-- The numerator of a fraction divided by a power of two. -/
def scaledNumerator (numerator : Nat) (exponent : Int) : Nat := numerator * raised 2 (-exponent)

/-- The denominator of a fraction divided by a power of two. -/
def scaledDenominator (denominator : Nat) (exponent : Int) : Nat := denominator * raised 2 exponent

/-- The exponent that gives the whole part of a fraction 53 bits, or the least exponent where the
fraction is too small for that. -/
def exponentOf (numerator denominator : Nat) : Int :=
  let low := max ((Nat.log2 numerator : Int) - Nat.log2 denominator - 53) (-1074)
  if scaledNumerator numerator low / scaledDenominator denominator low < significandBound then low
  else low + 1

/-- The number with a significand that rounding may have brought to 54 bits. -/
def normalized (isNegative : Bool) (significand : Nat) (exponent : Int) : Binary64 :=
  let carried : Nat × Int :=
    if significand = significandBound then (significandBound / 2, exponent + 1)
    else (significand, exponent)
  if carried.2 > 971 then .infinite isNegative else .finite isNegative carried.1 carried.2

/-- The number nearest to a fraction with a sign. -/
def ofFraction (isNegative : Bool) (numerator denominator : Nat) : Binary64 :=
  let exponent := exponentOf numerator denominator
  normalized isNegative
    (roundedQuotient (scaledNumerator numerator exponent) (scaledDenominator denominator exponent))
    exponent

/-- The number of decimal digits of a natural number. -/
def digitCount (value : Nat) : Nat := (Nat.toDigits 10 value).length

/-- The number nearest to a decimal: digits times a power of ten, with a sign. Beyond the range of
finite numbers the power is not computed. -/
def ofDecimal (isNegative : Bool) (digits : Nat) (exponent : Int) : Binary64 :=
  let leading := exponent + digitCount digits
  if digits = 0 ∨ leading < -330 then .finite isNegative 0 (-1074)
  else if leading > 330 then .infinite isNegative
  else ofFraction isNegative (digits * raised 10 exponent) (raised 10 (-exponent))

/-- The number nearest to a finite number plus one; the others stay. -/
def addOne : Binary64 → Binary64
  | .finite isNegative significand exponent =>
    let size := significand * raised 2 exponent
    let unit := raised 2 (-exponent)
    if isNegative then
      if size ≤ unit then ofFraction false (unit - size) unit
      else ofFraction true (size - unit) unit
    else ofFraction false (size + unit) unit
  | other => other

/-- The integer that a number is, if it is one. -/
def toInt? : Binary64 → Option Int
  | .finite isNegative significand exponent =>
    let size := significand * raised 2 exponent
    let unit := raised 2 (-exponent)
    if size % unit = 0 then
      some (if isNegative then -((size / unit : Nat) : Int) else (size / unit : Nat))
    else none
  | _ => none

/-- Whether a number is zero, of either sign. -/
def isZero : Binary64 → Bool
  | .finite _ significand _ => significand == 0
  | _ => false

end Binary64

end WatTypes
