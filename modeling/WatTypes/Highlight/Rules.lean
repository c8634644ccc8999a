import WatTypes.Highlight.Category
import WatTypes.Lexeme
import WatTypes.Text.Blank
import WatTypes.Text.Hexadecimal
import WatTypes.Text.WordCharacter
import WatTypes.Tree

/-!
# The rules of highlighting

A text is highlighted in one of three modes: outside of comments and strings, in a block comment,
or in a string. Each mode has a list of rules (`rules`), and of those that match at a place the
first one counts. A matcher sees the character before the place and the text from there on, and
gives the length of its match, which is zero where it does not match.
-/

set_option autoImplicit false
set_option relaxedAutoImplicit false

namespace WatTypes.Highlight

/-! ### Matchers -/

/-- The length of a match at a place, zero for none. -/
abbrev Matcher : Type := Option Char → List Char → Nat

/-- The length of the run of characters of a kind at the start of a text. -/
def runLength (isMember : Char → Bool) (cs : List Char) : Nat := (cs.takeWhile isMember).length

/-- Matches a run of characters of a kind. -/
def run (isMember : Char → Bool) : Matcher := fun _ cs ↦ runLength isMember cs

/-- Matches a given text. -/
def exactly (expected : List Char) : Matcher := fun _ cs ↦
  if expected.isPrefixOf cs then expected.length else 0

/-- Matches a line comment. -/
def lineComment : Matcher := fun _ cs ↦
  match cs with
  | ';' :: ';' :: rest => runLength (· ≠ '\n') rest + 2
  | _ => 0

/-- Matches a sigil and a name behind it. -/
def sigilName (sigil : Char) : Matcher := fun _ cs ↦
  match cs with
  | c :: rest => if c = sigil ∧ runLength isIdChar rest ≠ 0 then runLength isIdChar rest + 1 else 0
  | [] => 0

/-- Whether no word character comes first. -/
def endsWord : List Char → Bool
  | c :: _ => !Text.isWordCharacter c
  | [] => true

/-- Matches the first of some words that comes first and ends there. -/
def words (choices : List String) : Matcher := fun _ cs ↦
  match choices.find? fun word ↦
      word.toList.isPrefixOf cs && endsWord (cs.drop word.toList.length) with
  | some word => word.toList.length
  | none => 0

/-- Matches like another matcher, right behind an opening parenthesis. -/
def behindOpening (matcher : Matcher) : Matcher := fun before cs ↦
  if before = some '(' then matcher before cs else 0

/-- The length of a sign at the start of a text. -/
def signLength : List Char → Nat
  | '+' :: _ => 1
  | '-' :: _ => 1
  | _ => 0

/-- The length of a digit and of the digits and low lines behind it. -/
def digitsLength (isDigit : Char → Bool) : List Char → Nat
  | c :: rest => if isDigit c then runLength (fun d ↦ isDigit d || d == '_') rest + 1 else 0
  | [] => 0

/-- Matches a number in base sixteen with an optional sign. -/
def hexNumber : Matcher := fun _ cs ↦
  let sign := signLength cs
  match cs.drop sign with
  | '0' :: 'x' :: rest =>
    let digits := digitsLength Text.isHexDigit rest
    if digits = 0 then 0 else sign + 2 + digits
  | _ => 0

/-- Matches a decimal integer with an optional sign. -/
def decimalInteger : Matcher := fun _ cs ↦
  let sign := signLength cs
  let digits := digitsLength Char.isDigit (cs.drop sign)
  if digits = 0 then 0 else sign + digits

/-- Whether a character is a decimal digit or a low line. -/
def isDigitOrLowLine (c : Char) : Bool := c.isDigit || c == '_'

/-- The length of an exponent at the start of a text. -/
def exponentLength : List Char → Nat
  | c :: rest =>
    if c = 'e' ∨ c = 'E' then
      let sign := signLength rest
      let digits := runLength isDigitOrLowLine (rest.drop sign)
      if digits = 0 then 0 else 1 + sign + digits
    else 0
  | [] => 0

/-- Matches a decimal number with a point and an optional sign and exponent. -/
def floatNumber : Matcher := fun before cs ↦
  let whole := decimalInteger before cs
  match cs.drop whole with
  | '.' :: rest =>
    if whole = 0 then 0
    else
      let fraction := runLength isDigitOrLowLine rest
      whole + 1 + fraction + exponentLength (rest.drop fraction)
  | _ => 0

/-- Matches a word that starts with a lower-case letter. -/
def lowerWord : Matcher := fun _ cs ↦
  match cs with
  | c :: rest => if 'a' ≤ c ∧ c ≤ 'z' then runLength isIdChar rest + 1 else 0
  | [] => 0

/-- The length of the braces of a code point escape and of the digits in them. -/
def bracedLength : List Char → Nat
  | '{' :: rest =>
    let digits := runLength Text.isHexDigit rest
    if digits ≠ 0 ∧ (rest.drop digits).head? = some '}' then digits + 2 else 0
  | _ => 0

/-- Matches an escape of a string. -/
def escape : Matcher := fun _ cs ↦
  match cs with
  | '\\' :: c :: rest =>
    if c = 'u' ∧ bracedLength rest ≠ 0 then bracedLength rest + 2
    else if Text.isHexDigit c ∧ (rest.head?.map Text.isHexDigit) = some true then 3
    else if c ∈ ['n', 'r', 't', '\\', '\'', '"'] then 2
    else 0
  | _ => 0

/-! ### Modes and rules -/

/-- Where in a text a place lies. -/
inductive Mode where
  /-- Outside of comments and strings. -/
  | plain
  /-- In a block comment. -/
  | comment
  /-- In a string. -/
  | string
deriving DecidableEq, Repr

/-- What becomes of the mode behind a match. -/
inductive Shift where
  /-- It stays. -/
  | stay
  /-- Another mode is entered. -/
  | enter (mode : Mode)
  /-- The mode is left for the one it was entered from. -/
  | leave
deriving DecidableEq, Repr

/-- A rule of highlighting. -/
structure Rule where
  /-- Where it matches. -/
  matcher : Matcher
  /-- The category of what it matches. -/
  category : Category
  /-- What becomes of the mode. -/
  shift : Shift

/-- The keywords that start a declaration. -/
def declarationWords : List String := ["module", "type", "func", "global", "table", "memory"]

/-- The keywords in types. -/
def typeWords : List String := ["param", "result", "mut", "shared"]

/-- The keywords that name types. -/
def typeNames : List String := ValType.all.map ValType.keyword ++ [anyfunc]

/-- The rules of a mode, the first one that matches counts. -/
def rules : Mode → List Rule
  | .plain => [
    ⟨run Text.isBlank, .text, .stay⟩,
    ⟨lineComment, .lineComment, .stay⟩,
    ⟨exactly ['(', ';'], .blockComment, .enter .comment⟩,
    ⟨exactly ['"'], .string, .enter .string⟩,
    ⟨sigilName '$', .variable, .stay⟩,
    ⟨sigilName '@', .decorator, .stay⟩,
    ⟨behindOpening (words declarationWords), .declaration, .stay⟩,
    ⟨words typeWords, .keyword, .stay⟩,
    ⟨words typeNames, .typeName, .stay⟩,
    ⟨hexNumber, .hexNumber, .stay⟩,
    ⟨floatNumber, .floatNumber, .stay⟩,
    ⟨decimalInteger, .integer, .stay⟩,
    ⟨exactly ['('], .punctuation, .stay⟩,
    ⟨exactly [')'], .punctuation, .stay⟩,
    ⟨lowerWord, .name, .stay⟩]
  | .comment => [
    ⟨run fun c ↦ c ≠ '(' ∧ c ≠ ';', .blockComment, .stay⟩,
    ⟨exactly ['(', ';'], .blockComment, .enter .comment⟩,
    ⟨exactly [';', ')'], .blockComment, .leave⟩,
    ⟨exactly ['('], .blockComment, .stay⟩,
    ⟨exactly [';'], .blockComment, .stay⟩]
  | .string => [
    ⟨escape, .escape, .stay⟩,
    ⟨run fun c ↦ c ≠ '"' ∧ c ≠ '\\', .string, .stay⟩,
    ⟨exactly ['"'], .string, .leave⟩]

end WatTypes.Highlight
