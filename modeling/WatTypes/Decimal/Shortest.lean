import WatTypes.Decimal.Binary64

/-!
# Shortest decimals

A finite number stands for all reals that round to it, and its text is the decimal among them with
the fewest digits, the nearest such one where there are several, and of two the one that ends in an
even digit (`shortest`). Whether a decimal rounds to a number is told by comparing it exactly with
the ends of that interval (`readsBack`).
-/

set_option autoImplicit false
set_option relaxedAutoImplicit false

namespace WatTypes.Decimal

open Binary64 (raised)

/-- How a decimal compares with a binary number: `digits * 10 ^ tens` with `count * 2 ^ twos`. -/
def compareScaled (digits : Nat) (tens : Int) (count : Nat) (twos : Int) : Ordering :=
  compare (digits * raised 10 tens * raised 2 (-twos)) (count * raised 2 twos * raised 10 (-tens))

/-- Whether a decimal rounds to the number with a significand and an exponent. Below a power of two
the numbers lie twice as dense as above it. -/
def readsBack (significand : Nat) (exponent : Int) (digits : Nat) (tens : Int) : Bool :=
  let narrow := significand = Binary64.significandBound / 2 ∧ exponent > -1074
  let low := if narrow then 4 * significand - 1 else 4 * significand - 2
  let fromLow := compareScaled digits tens low (exponent - 2)
  let fromHigh := compareScaled digits tens (4 * significand + 2) (exponent - 2)
  let ends := significand % 2 == 0
  (fromLow == .gt || (ends && fromLow == .eq)) && (fromHigh == .lt || (ends && fromHigh == .eq))

/-- The whole part of a number divided by a power of ten. -/
def wholePart (significand : Nat) (exponent tens : Int) : Nat :=
  (significand * raised 2 exponent * raised 10 (-tens)) / (raised 2 (-exponent) * raised 10 tens)

/-- The least power of ten above a number. -/
def scale (significand : Nat) (exponent : Int) : Int :=
  let numerator := significand * raised 2 exponent
  let denominator := raised 2 (-exponent)
  let guess : Int := (Binary64.digitCount numerator : Int) - Binary64.digitCount denominator
  if compareScaled 1 guess significand exponent == .gt then guess else guess + 1

/-- The multiple of a power of ten next to a number that rounds to it, if there is one. -/
def neighbour? (significand : Nat) (exponent tens : Int) : Option Nat :=
  let below := wholePart significand exponent tens
  match readsBack significand exponent below tens,
    readsBack significand exponent (below + 1) tens with
  | false, false => none
  | true, false => some below
  | false, true => some (below + 1)
  | true, true =>
    match compareScaled (2 * below + 1) tens (2 * significand) exponent with
    | .gt => some below
    | .lt => some (below + 1)
    | .eq => some (if below % 2 = 0 then below else below + 1)

/-- A decimal without zeros at its end. -/
def withoutFinalZeros (digits : Nat) (tens : Int) : Nat × Int :=
  if h : digits ≠ 0 ∧ digits % 10 = 0 then withoutFinalZeros (digits / 10) (tens + 1)
  else (digits, tens)
termination_by digits
decreasing_by omega

/-- The shortest decimal that rounds to a number. Seventeen digits are always enough; the exact
value stands behind them. -/
def shortest (significand : Nat) (exponent : Int) : Nat × Int :=
  if significand = 0 then (0, 0)
  else
    let top := scale significand exponent
    let found := (List.range 17).findSome? fun (count : Nat) ↦
      let tens := top - (count : Int) - 1
      (neighbour? significand exponent tens).map fun digits ↦ (digits, tens)
    match found with
    | some (digits, tens) => withoutFinalZeros digits tens
    | none =>
      withoutFinalZeros (significand * raised 2 exponent * raised 5 (-exponent)) (min exponent 0)

/-! ### Layout -/

/-- How a decimal is laid out. -/
structure Layout where
  /-- The least exponent of the leading digit that is written without an exponent. -/
  plainFrom : Int
  /-- The least exponent of the leading digit above that which is written with an exponent. -/
  plainBelow : Int
  /-- The least number of digits of an exponent. -/
  exponentWidth : Nat
  /-- What stands for an infinity. -/
  infinity : String
  /-- What stands for a number that is none. -/
  notANumber : String

/-- A run of zeros. -/
def zeros (count : Nat) : List Char := List.replicate count '0'

/-- An exponent, with its sign. -/
def exponentText (layout : Layout) (exponent : Int) : List Char :=
  let digits := Nat.toDigits 10 exponent.natAbs
  (if exponent < 0 then '-' else '+') ::
    zeros (layout.exponentWidth - digits.length) ++ digits

/-- A decimal as it is laid out: a whole number keeps a zero behind its point, and an exponent
stands behind at most one digit before the point. -/
def laidOut (layout : Layout) (digits : Nat) (tens : Int) : List Char :=
  let shown := Nat.toDigits 10 digits
  let leading := tens + shown.length - 1
  if layout.plainFrom ≤ leading ∧ leading < layout.plainBelow then
    if 0 ≤ tens then shown ++ zeros tens.toNat ++ ['.', '0']
    else if 0 ≤ leading then
      shown.take (leading.toNat + 1) ++ '.' :: shown.drop (leading.toNat + 1)
    else '0' :: '.' :: zeros (-leading - 1).toNat ++ shown
  else
    let fraction := shown.drop 1
    shown.take 1 ++ (if fraction.isEmpty then [] else '.' :: fraction) ++
      'e' :: exponentText layout leading

/-- A number as text. -/
def text (layout : Layout) : Binary64 → String
  | .nan => layout.notANumber
  | .infinite isNegative => (if isNegative then "-" else "") ++ layout.infinity
  | .finite isNegative significand exponent =>
    let (digits, tens) := shortest significand exponent
    (if isNegative then "-" else "") ++ String.ofList (laidOut layout digits tens)

end WatTypes.Decimal
