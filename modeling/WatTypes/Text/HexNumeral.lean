import WatTypes.Text.Blank
import WatTypes.Text.DecimalDigit
import WatTypes.Text.Hexadecimal

/-!
# Lenient base-sixteen numerals

The digits of a code point escape are read leniently (`codePoint?`): blanks around them are
dropped, a sign may stand in front, then `0x` in either case with one low line after it, and single
low lines may separate digits. The decimal digits of every script count by their value. The
numeral has to denote a Unicode scalar value.
-/

set_option autoImplicit false
set_option relaxedAutoImplicit false

namespace WatTypes.Text.HexNumeral

/-- Whether a character may surround a numeral: the blanks without the separators U+001C to
U+001F. -/
def isPadding (c : Char) : Bool :=
  decide ('\t' ≤ c ∧ c ≤ '\r') || c == ' ' || (decide (127 < c.toNat) && isBlank c)

/-- The value of a digit: a letter of either case or a decimal digit of any script. -/
def digitValue? (c : Char) : Option Nat :=
  if c.toNat < 128 then hexValue? c else decimalDigit? c

/-- The value of digits with single low lines between them, carried on from `value`. -/
def valueFrom? (value : Nat) : List Char → Option Nat
  | [] => none
  | [c] => (digitValue? c).map (value * 16 + ·)
  | c :: '_' :: rest => (digitValue? c).bind fun digit ↦ valueFrom? (value * 16 + digit) rest
  | c :: rest => (digitValue? c).bind fun digit ↦ valueFrom? (value * 16 + digit) rest

/-- A text without one leading low line. -/
def withoutLowLine : List Char → List Char
  | '_' :: rest => rest
  | cs => cs

/-- The digits of a numeral: what follows a leading zero digit and `x`, and one low line after
them, or the whole where no such marker leads. -/
def withoutMarker : List Char → List Char
  | zero :: marker :: rest =>
    if digitValue? zero = some 0 ∧ (marker = 'x' ∨ marker = 'X') then withoutLowLine rest
    else zero :: marker :: rest
  | cs => cs

/-- A text without the padding on both sides. -/
def withoutPadding (cs : List Char) : List Char :=
  ((cs.dropWhile isPadding).reverse.dropWhile isPadding).reverse

/-- The integer that a lenient numeral denotes. -/
def value? (cs : List Char) : Option Int :=
  match withoutPadding cs with
  | '-' :: rest => (valueFrom? 0 (withoutMarker rest)).map fun magnitude ↦ -(magnitude : Int)
  | '+' :: rest => (valueFrom? 0 (withoutMarker rest)).map fun magnitude ↦ (magnitude : Int)
  | rest => (valueFrom? 0 (withoutMarker rest)).map fun magnitude ↦ (magnitude : Int)

/-- The character that a number is the code point of, unless it is negative, too large or a
surrogate. -/
def scalar? : Int → Option Char
  | .ofNat code => if h : code.isValidChar then some (Char.ofNatAux code h) else none
  | .negSucc _ => none

/-- The character whose code point a lenient numeral denotes. -/
def codePoint? (cs : List Char) : Option Char := (value? cs).bind scalar?

end WatTypes.Text.HexNumeral
