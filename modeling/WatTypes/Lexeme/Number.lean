import WatTypes.Text.Hexadecimal

/-!
# Number literals

Digits are written in groups parted by single low lines (`isDigits`). An integer literal is
such a run in base ten, or in base sixteen after `0x`, with an optional sign (`isInteger`); a float
literal may have a fraction and an exponent, in base ten or sixteen, or is an infinity or a NaN
(`isFloat`). An integer literal without a sign is converted to a number from the digits that count
(`Numeral`), and what fits into 32 bits is told by counting them first (`unsigned32?`).
-/

set_option autoImplicit false
set_option relaxedAutoImplicit false

namespace WatTypes.Lexeme.Number

/-- Whether a text is a run of digits, single low lines allowed between them. -/
def isDigits (isDigit : Char → Bool) : List Char → Bool
  | [] => false
  | [c] => isDigit c
  | c :: '_' :: rest => isDigit c && isDigits isDigit rest
  | c :: rest => isDigit c && isDigits isDigit rest

/-- A literal without its sign. -/
def withoutSign : List Char → List Char
  | '+' :: rest => rest
  | '-' :: rest => rest
  | cs => cs

/-- Whether a text is an integer literal. -/
def isInteger (cs : List Char) : Bool :=
  match withoutSign cs with
  | '0' :: 'x' :: digits => isDigits Text.isHexDigit digits
  | digits => isDigits Char.isDigit digits

/-- A text cut at the first character of a kind: what stands before it, and what stands after it
if there is one. -/
def cutAt (isMark : Char → Bool) : List Char → List Char × Option (List Char)
  | [] => ([], none)
  | c :: rest =>
    if isMark c then ([], some rest)
    else let (before, after) := cutAt isMark rest; (c :: before, after)

/-- Whether a text is a run of digits that may have a point and a run of further digits behind
it, which may be missing after the point. -/
def isPointed (isDigit : Char → Bool) (cs : List Char) : Bool :=
  match cutAt (· == '.') cs with
  | (whole, none) => isDigits isDigit whole
  | (whole, some fraction) =>
    isDigits isDigit whole && (fraction.isEmpty || isDigits isDigit fraction)

/-- Whether a text is a pointed number that may have an exponent after a mark. The digits of an
exponent are decimal. -/
def isScaled (isDigit isMark : Char → Bool) (cs : List Char) : Bool :=
  match cutAt isMark cs with
  | (significand, none) => isPointed isDigit significand
  | (significand, some scale) =>
    isPointed isDigit significand && isDigits Char.isDigit (withoutSign scale)

/-- Whether a text is a float literal. -/
def isFloat (cs : List Char) : Bool :=
  match withoutSign cs with
  | ['i', 'n', 'f'] => true
  | ['n', 'a', 'n'] => true
  | 'n' :: 'a' :: 'n' :: ':' :: '0' :: 'x' :: payload => isDigits Text.isHexDigit payload
  | '0' :: 'x' :: rest => isScaled Text.isHexDigit (fun c ↦ c == 'p' || c == 'P') rest
  | rest => isScaled Char.isDigit (fun c ↦ c == 'e' || c == 'E') rest

/-- An integer literal without a sign as it is converted to a number: low lines are left out, and so
are zeros in front. -/
structure Numeral where
  /-- The base. -/
  base : Nat
  /-- The digits that count. -/
  digits : List Char
deriving DecidableEq, Repr

namespace Numeral

/-- The numeral of a literal without a sign. -/
def ofLiteral (cs : List Char) : Numeral :=
  match cs.filter (· ≠ '_') with
  | '0' :: 'x' :: digits => ⟨16, digits.dropWhile (· = '0')⟩
  | digits => ⟨10, digits.dropWhile (· = '0')⟩

/-- The most digits that a number of 32 bits has in the base. -/
def mostDigits (numeral : Numeral) : Nat := if numeral.base = 16 then 8 else 10

/-- The number that a numeral denotes, unless it is too long to be converted. -/
def value? (numeral : Numeral) : Option Nat :=
  if numeral.base = 10 ∧ Text.mostDecimalDigits < numeral.digits.length then none
  else some (Text.ofDigits numeral.base numeral.digits)

end Numeral

/-- The value of an integer literal that has no sign and fits into 32 bits. The digits are counted
first, since a long literal may not be converted at all. -/
def unsigned32? (literal : String) : Option Nat :=
  match literal.toList with
  | '+' :: _ => none
  | '-' :: _ => none
  | cs =>
    let numeral := Numeral.ofLiteral cs
    if numeral.mostDigits < numeral.digits.length then none
    else numeral.value?.filter (· ≤ 4294967295)

end WatTypes.Lexeme.Number
