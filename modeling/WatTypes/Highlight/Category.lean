/-!
# Highlighting categories

The kinds of text that highlighting tells apart, and the colour that a terminal gives to each. Plain
text, names and punctuation have none.
-/

set_option autoImplicit false
set_option relaxedAutoImplicit false

namespace WatTypes.Highlight

/-- A kind of highlighted text. -/
inductive Category where
  /-- Blanks. -/
  | text
  /-- A line comment. -/
  | lineComment
  /-- A piece of a block comment. -/
  | blockComment
  /-- A piece of a string. -/
  | string
  /-- An escape in a string. -/
  | escape
  /-- An identifier. -/
  | variable
  /-- The head of an annotation. -/
  | decorator
  /-- A keyword that starts a declaration. -/
  | declaration
  /-- A keyword in a type. -/
  | keyword
  /-- A keyword that names a type. -/
  | typeName
  /-- A number in base sixteen. -/
  | hexNumber
  /-- A decimal number with a fraction. -/
  | floatNumber
  /-- A decimal integer. -/
  | integer
  /-- A parenthesis. -/
  | punctuation
  /-- Any other word. -/
  | name
  /-- A character that cannot stand where it does. -/
  | error
deriving DecidableEq, Repr

/-- The control sequences that a terminal shows a category by, unless it is shown plainly. -/
def Category.color? : Category → Option String
  | .lineComment | .blockComment => some "\x1b[37m"
  | .typeName => some "\x1b[36m"
  | .declaration | .keyword => some "\x1b[34m"
  | .variable => some "\x1b[31m"
  | .decorator => some "\x1b[90m"
  | .string | .escape => some "\x1b[33m"
  | .hexNumber | .floatNumber | .integer => some "\x1b[34m"
  | .error => some "\x1b[04m\x1b[91m"
  | .text | .punctuation | .name => none

end WatTypes.Highlight
