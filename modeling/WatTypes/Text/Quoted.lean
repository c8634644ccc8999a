import WatTypes.Text.Hexadecimal
import WatTypes.Text.Printable

/-!
# Quoted text

How a message shows a piece of text, so that its ends and every invisible character can be seen.
The text stands between single marks, or between double marks where it holds a single mark and no
double one. The mark used and the backslash are escaped by a backslash, line feed, carriage return
and tab by their letters, and every other unprintable character by its code point, in two, four or
eight hexadecimal digits after `x`, `u` or `U`.
-/

set_option autoImplicit false
set_option relaxedAutoImplicit false

namespace WatTypes.Text

/-- The mark that a text is quoted with. -/
def quotationMark (text : List Char) : Char :=
  if text.contains '\'' && !text.contains '"' then '"' else '\''

/-- An unprintable character by its code point, in as few of two, four and eight digits as do. -/
def escapedCodePoint (c : Char) : List Char :=
  if c.toNat ≤ 0xff then '\\' :: 'x' :: hexDigits 2 c.toNat
  else if c.toNat ≤ 0xffff then '\\' :: 'u' :: hexDigits 4 c.toNat
  else '\\' :: 'U' :: hexDigits 8 c.toNat

/-- One character of a quoted text. -/
def quotedChar (mark c : Char) : List Char :=
  if c = mark ∨ c = '\\' then ['\\', c]
  else if c = '\n' then ['\\', 'n']
  else if c = '\r' then ['\\', 'r']
  else if c = '\t' then ['\\', 't']
  else if isPrintable c then [c]
  else escapedCodePoint c

/-- A text as messages quote it. -/
def quoted (text : String) : String :=
  let mark := quotationMark text.toList
  String.ofList (mark :: text.toList.flatMap (quotedChar mark) ++ [mark])

end WatTypes.Text
