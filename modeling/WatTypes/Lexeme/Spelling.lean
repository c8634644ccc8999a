import WatTypes.Lexeme
import WatTypes.Text.Hexadecimal

/-!
# How lexemes are written

Every lexeme has one canonical spelling. A string stands in double quotes, where a quote and a
backslash are escaped by a backslash, line feed and tab by a letter, and every other control
character of ASCII by its byte in two hexadecimal digits. A list of lexemes is written on one line
with a single space between neighbours, except behind an opening parenthesis and before a closing
one (`spaced`).
-/

set_option autoImplicit false
set_option relaxedAutoImplicit false

namespace WatTypes.Lexeme

/-- One character of a string literal. -/
def literalChar (c : Char) : List Char :=
  if c = '"' ∨ c = '\\' then ['\\', c]
  else if c = '\n' then ['\\', 'n']
  else if c = '\t' then ['\\', 't']
  else if c.toNat < 0x20 ∨ c.toNat = 0x7f then '\\' :: Text.hexDigits 2 c.toNat
  else [c]

/-- A text as a string literal. -/
def stringLiteral (text : String) : String :=
  String.ofList ('"' :: text.toList.flatMap literalChar ++ ['"'])

/-- The canonical spelling of a lexeme. -/
def spelling : Lexeme → String
  | .opening => "("
  | .closing => ")"
  | .keyword word => word
  | .id name => "$" ++ name
  | .annotationHead name => "@" ++ name
  | .integer literal => literal
  | .float literal => literal
  | .string text => stringLiteral text
  | .endOfInput => ""

/-- What stands between two neighbours on a line. -/
def separator : Lexeme → Lexeme → String
  | .opening, _ => ""
  | _, .closing => ""
  | _, _ => " "

/-- A list of lexemes on one line. -/
def spaced : List Lexeme → String
  | [] => ""
  | [only] => only.spelling
  | first :: second :: rest =>
    first.spelling ++ separator first second ++ spaced (second :: rest)

/-- Lexemes in parentheses. -/
def parenthesised (inner : List Lexeme) : List Lexeme := .opening :: inner ++ [.closing]

end WatTypes.Lexeme
