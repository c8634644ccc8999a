import WatTypes.Text.Hexadecimal
import WatTypes.Toml.Value

/-!
# Numbers, dates and times

The values that are written without quotes or brackets are recognised at the start of a text, and
what stands behind them is left for the reader (`scalar?`): a date with an optional time, a time,
an integer in one of four bases, or a floating-point number. Single low lines may stand between the
digits of a number.
-/

set_option autoImplicit false
set_option relaxedAutoImplicit false

namespace WatTypes.Toml

/-! ### Dates and times -/

/-- A number of exactly `width` digits, within bounds. -/
def fixedNumber? (width least most : Nat) (text : List Char) : Option (Nat × List Char) :=
  let digits := text.take width
  let value := digits.foldl (fun value c ↦ value * 10 + (c.toNat - '0'.toNat)) 0
  if digits.length = width ∧ digits.all Char.isDigit ∧ least ≤ value ∧ value ≤ most then
    some (value, text.drop width)
  else none

/-- What stands behind a mark at the start of a text. -/
def after? (isMark : Char → Bool) : List Char → Option (List Char)
  | [] => none
  | c :: rest => if isMark c then some rest else none

/-- What stands behind hours and minutes. -/
def afterMinutes? (text : List Char) : Option (List Char) := do
  let (_, text) ← fixedNumber? 2 0 23 text
  let (_, text) ← fixedNumber? 2 0 59 (← after? (· == ':') text)
  return text

/-- What stands behind a time of day. Its seconds may have a fraction. -/
def afterTime? (text : List Char) : Option (List Char) := do
  let (_, text) ← fixedNumber? 2 0 59 (← after? (· == ':') (← afterMinutes? text))
  match text with
  | '.' :: c :: rest => return if c.isDigit then rest.dropWhile Char.isDigit else text
  | _ => return text

/-- What stands behind an offset from universal time. -/
def afterOffset? : List Char → Option (List Char)
  | c :: rest =>
    if c = 'Z' ∨ c = 'z' then some rest
    else if c = '+' ∨ c = '-' then afterMinutes? rest
    else none
  | [] => none

/-- What stands behind a time and an offset that may follow a date. -/
def afterOptionalTime (text : List Char) : List Char :=
  match (after? (fun c ↦ c == 'T' || c == 't' || c == ' ') text).bind afterTime? with
  | some rest => (afterOffset? rest).getD rest
  | none => text

/-- The number of days of a month. -/
def daysOf (year month : Nat) : Nat :=
  if month = 2 then
    if year % 4 = 0 ∧ (year % 100 ≠ 0 ∨ year % 400 = 0) then 29 else 28
  else if month = 4 ∨ month = 6 ∨ month = 9 ∨ month = 11 then 30
  else 31

/-- What stands before the rest of a text, as a value. -/
def momentBefore (text rest : List Char) : Value :=
  .moment (String.ofList (text.take (text.length - rest.length)))

/-- A date at the start of a text, with the time that may follow it. There is no year zero, and the
day has to be one of its month. -/
def date? (text : List Char) : Option (Except Fault Value × List Char) := do
  let (year, rest) ← fixedNumber? 4 0 9999 text
  let (month, rest) ← fixedNumber? 2 1 12 (← after? (· == '-') rest)
  let (day, rest) ← fixedNumber? 2 1 31 (← after? (· == '-') rest)
  let rest := afterOptionalTime rest
  return (if year = 0 ∨ daysOf year month < day then .error .malformed
    else .ok (momentBefore text rest), rest)

/-- A time at the start of a text. -/
def time? (text : List Char) : Option (Except Fault Value × List Char) := do
  let rest ← afterTime? text
  return (.ok (momentBefore text rest), rest)

/-! ### Numbers -/

/-- The digits that follow a digit, without low lines, and what stands behind them. -/
def moreDigits (isDigit : Char → Bool) : List Char → List Char × List Char
  | [] => ([], [])
  | '_' :: c :: rest =>
    if isDigit c then
      let (digits, behind) := moreDigits isDigit rest
      (c :: digits, behind)
    else ([], '_' :: c :: rest)
  | c :: rest =>
    if isDigit c then
      let (digits, behind) := moreDigits isDigit rest
      (c :: digits, behind)
    else ([], c :: rest)

/-- A run of digits, without low lines, and what stands behind it. -/
def digits? (isDigit : Char → Bool) : List Char → Option (List Char × List Char)
  | [] => none
  | c :: rest =>
    if isDigit c then
      let (digits, behind) := moreDigits isDigit rest
      some (c :: digits, behind)
    else none

/-- An integer in a base that is marked by a letter behind a zero. -/
def basedInteger? : List Char → Option (Value × List Char)
  | '0' :: 'x' :: rest => in? 16 Text.isHexDigit rest
  | '0' :: 'o' :: rest => in? 8 (fun c ↦ '0' ≤ c && c ≤ '7') rest
  | '0' :: 'b' :: rest => in? 2 (fun c ↦ c == '0' || c == '1') rest
  | _ => none
where
  /-- An integer in a base with its digits. -/
  in? (base : Nat) (isDigit : Char → Bool) (text : List Char) : Option (Value × List Char) :=
    (digits? isDigit text).map fun (digits, rest) ↦ (.integer (Text.ofDigits base digits), rest)

/-- Whether a text starts with a minus, and what stands behind an optional sign. -/
def sign : List Char → Bool × List Char
  | '-' :: rest => (true, rest)
  | '+' :: rest => (false, rest)
  | text => (false, text)

/-- The digits of a whole number, which starts with a zero only if it is zero. -/
def wholeDigits? : List Char → Option (List Char × List Char)
  | '0' :: rest => some (['0'], rest)
  | text => digits? Char.isDigit text

/-- The digits of a fraction, if one follows. -/
def fractionDigits (text : List Char) : List Char × List Char :=
  ((after? (· == '.') text).bind (digits? Char.isDigit)).getD ([], text)

/-- An exponent, if one follows. -/
def exponent (text : List Char) : Option Int × List Char :=
  match after? (fun c ↦ c == 'e' || c == 'E') text with
  | none => (none, text)
  | some behind =>
    let (isNegative, unsigned) := sign behind
    match digits? Char.isDigit unsigned with
    | none => (none, text)
    | some (digits, rest) =>
      let value : Int := Text.ofDigits 10 digits
      (some (if isNegative then -value else value), rest)

/-- A decimal number: an integer, or with a fraction or an exponent a floating-point number. -/
def decimal? (text : List Char) : Option (Except Fault Value × List Char) := do
  let (isNegative, unsigned) := sign text
  let (whole, behindWhole) ← wholeDigits? unsigned
  let (fraction, behindFraction) := fractionDigits behindWhole
  let (scale?, rest) := exponent behindFraction
  if fraction.isEmpty && scale?.isNone then
    let value : Int := Text.ofDigits 10 whole
    return (if Text.mostDecimalDigits < whole.length then .error .integerTooLong
      else .ok (.integer (if isNegative then -value else value)), rest)
  else
    return (.ok (.float (Binary64.ofDecimal isNegative (Text.ofDigits 10 (whole ++ fraction))
      (scale?.getD 0 - fraction.length))), rest)

/-- An infinity, or what is not a number. -/
def special? (text : List Char) : Option (Value × List Char) :=
  match sign text with
  | (isNegative, 'i' :: 'n' :: 'f' :: rest) => some (.float (.infinite isNegative), rest)
  | (_, 'n' :: 'a' :: 'n' :: rest) => some (.float .nan, rest)
  | _ => none

/-- An outcome that is a value. -/
def found (read : Value × List Char) : Except Fault Value × List Char := (.ok read.1, read.2)

/-- A number, a date or a time at the start of a text, and what stands behind it. -/
def scalar? (text : List Char) : Option (Except Fault Value × List Char) :=
  date? text <|> time? text <|> (basedInteger? text).map found <|> decimal? text <|>
    (special? text).map found

end WatTypes.Toml
