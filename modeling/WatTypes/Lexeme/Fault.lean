import WatTypes.Diagnostic
import WatTypes.Text.Quoted

/-!
# Lexical faults

What can be wrong with a source before its grammar is looked at, and how each fault is worded.
Every lexical fault has the code `E100` and points to a single character.
-/

set_option autoImplicit false
set_option relaxedAutoImplicit false

namespace WatTypes.Lexeme

/-- What is wrong at a place of a source. -/
inductive Fault where
  /-- A character that can start no lexeme. -/
  | unexpectedChar (c : Char)
  /-- A block comment that is not closed. -/
  | unterminatedComment
  /-- A closing parenthesis with no opening one. -/
  | unbalancedClosing
  /-- A parenthesis that opens deeper than allowed; the limit is given as it is shown. -/
  | tooDeep (limit : String)
  /-- The input ends inside a parenthesis. -/
  | unclosedOpening
  /-- A string that does not end on its line. -/
  | unterminatedString
  /-- A string whose bytes are not UTF-8. -/
  | invalidUtf8
  /-- The input ends after a backslash. -/
  | endInEscape
  /-- A code point escape that denotes no character. -/
  | malformedCodePoint
  /-- An escape that is not known, by the character after the backslash. -/
  | unknownEscape (c : Char)
  /-- A sigil with no name after it. -/
  | emptyName (sigil : Char)
  /-- A word that is neither a number nor a keyword. -/
  | unknownWord (word : String)
deriving DecidableEq, Repr

/-- The wording of a fault. -/
def Fault.message : Fault → String
  | .unexpectedChar c => s!"unexpected character: {Text.quoted (String.singleton c)}"
  | .unterminatedComment => "unterminated block comment"
  | .unbalancedClosing => "unbalanced `)`"
  | .tooDeep limit => s!"nesting deeper than the configured limit of {limit}"
  | .unclosedOpening => "unclosed `(` at end of input"
  | .unterminatedString => "unterminated string literal"
  | .invalidUtf8 => "string is not valid UTF-8"
  | .endInEscape => "unexpected end of escape sequence"
  | .malformedCodePoint => "malformed unicode escape"
  | .unknownEscape c => "unknown escape sequence: \\" ++ String.singleton c
  | .emptyName sigil => "empty name after `" ++ String.singleton sigil ++ "`"
  | .unknownWord word => s!"unknown token: {Text.quoted word}"

/-- The diagnostic for a fault at a place. -/
def Fault.diagnostic (file : String) (fault : Fault) (here : Position) : Diagnostic :=
  .ofSpan "E100" fault.message (.single file here) []

end WatTypes.Lexeme
