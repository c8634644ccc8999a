import WatTypes.Step
import WatTypes.Toml.Scalar

/-!
# Strings and keys

A reader steps from text to text. Strings stand in single quotes, which keep every character as it
is, or in double quotes, where a backslash starts an escape; three quotes instead of one allow line
breaks. A key is a run of letters, digits, low lines and hyphens or a string on one line, and keys
are joined by dots.
-/

set_option autoImplicit false
set_option relaxedAutoImplicit false

namespace WatTypes.Toml

/-- A step that reads from the text ahead. -/
abbrev Reader (α : Type) : Type := Step Fault (List Char) α

namespace Reader

open Step

variable {α : Type}

/-! ### Characters -/

/-- Fails because the text breaks a rule. -/
def malformed : Reader α := fail .malformed

/-- Reads a character. -/
def next : Reader Char
  | [] => (.error .malformed, [])
  | c :: rest => (.ok c, rest)

/-- Passes all characters of a kind that come next. -/
def passAll (isKind : Char → Bool) : Reader Unit := update (·.dropWhile isKind)

/-- Passes some characters, which have to come next. -/
def expect (characters : List Char) : Reader Unit := do
  if characters.isPrefixOf (← state) then update (·.drop characters.length) else malformed

/-- Passes some characters if they come next, and tells whether they did. -/
def accept (characters : List Char) : Reader Bool := do
  if characters.isPrefixOf (← state) then
    update (·.drop characters.length)
    return true
  else return false

/-- Whether a character is a blank within a line. -/
def isBlank (c : Char) : Bool := c == ' ' || c == '\t'

/-- Whether a character is a blank or a line feed. -/
def isGap (c : Char) : Bool := isBlank c || c == '\n'

/-- Whether a character must not stand in a comment or in a string on one line. -/
def isControl (c : Char) : Bool := (c < ' ' && c != '\t') || c == '\x7f'

/-- Passes the blanks that come next. -/
def blanks : Reader Unit := passAll isBlank

/-- Passes a comment, if one comes next, up to the end of its line. -/
def comment : Reader Unit := do
  if ← accept ['#'] then
    if ((← state).takeWhile (· != '\n')).any isControl then malformed
    else passAll (· != '\n')

/-! ### Strings -/

/-- The character that a letter behind a backslash stands for. -/
def escaped? : Char → Option Char
  | 'b' => some '\x08'
  | 't' => some '\t'
  | 'n' => some '\n'
  | 'f' => some '\x0c'
  | 'r' => some '\r'
  | '"' => some '"'
  | '\\' => some '\\'
  | _ => none

/-- Reads the code of a character, of so many hexadecimal digits. -/
def codePoint (width : Nat) : Reader (List Char) := do
  let digits := (← state).take width
  let code := Text.ofDigits 16 digits
  if digits.length = width ∧ digits.all Text.isHexDigit ∧ code.isValidChar then
    update (·.drop width)
    return [Char.ofNat code]
  else malformed

/-- Reads what stands behind a backslash. On several lines, a backslash at the end of a line hides
the line break and all blanks up to the next other character. -/
def escape (severalLines : Bool) : Reader (List Char) := do
  let c ← next
  if c = 'u' then codePoint 4
  else if c = 'U' then codePoint 8
  else if severalLines && isGap c then
    if c ≠ '\n' then
      blanks
      expect ['\n']
    passAll isGap
    return []
  else
    match escaped? c with
    | some meant => return [meant]
    | none => malformed

/-- Reads the next characters of a string: one as it is, or an escape. -/
def piece (escapes severalLines : Bool) : Reader (List Char) := do
  let c ← next
  if escapes && c == '\\' then escape severalLines
  else if isControl c && !(severalLines && c == '\n') then malformed
  else return [c]

/-- Reads the rest of a string up to its closing quotes, and these too. -/
def upTo (closing : List Char) (piece : Reader (List Char)) : Reader String := do
  let pieces ← whileMore List.length (fun text ↦ !closing.isPrefixOf text) piece
  expect closing
  return String.ofList pieces.flatten

/-- Reads a string on one line, in quotes. -/
def lineString (quote : Char) : Reader String := do
  expect [quote]
  upTo [quote] (piece (quote == '"') false)

/-- Reads a string on several lines, in three quotes. A line break right behind the opening ones is
dropped, and up to two quotes right before the closing ones belong to the string. -/
def blockString (quote : Char) : Reader String := do
  expect [quote, quote, quote]
  let _ ← accept ['\n']
  let text ← upTo [quote, quote, quote] (piece (quote == '"') true)
  let more := ((← state).take 2).takeWhile (· == quote)
  update (·.drop more.length)
  return text ++ String.ofList more

/-- Reads a string that starts with a quote. -/
def string (quote : Char) : Reader String := do
  if [quote, quote, quote].isPrefixOf (← state) then blockString quote else lineString quote

/-! ### Keys -/

/-- Whether a character can stand in a key without quotes. -/
def isKeyCharacter (c : Char) : Bool := c.isAlphanum || c == '_' || c == '-'

/-- Whether a key can start with a character. -/
def startsKey (c : Char) : Bool := isKeyCharacter c || c == '"' || c == '\''

/-- Reads a part of a key, and the blanks behind it. -/
def keyPart : Reader String := do
  let text ← state
  match text with
  | [] => malformed
  | c :: _ =>
    if isKeyCharacter c then
      passAll isKeyCharacter
      blanks
      return String.ofList (text.takeWhile isKeyCharacter)
    else if startsKey c then
      let part ← lineString c
      blanks
      return part
    else malformed

/-- Reads a key, and the blanks behind it. -/
def key : Reader Key := do
  let first ← keyPart
  let others ← whileMore List.length (fun text ↦ text.head? == some '.') do
    expect ['.']
    blanks
    keyPart
  return Key.ofParts first others

end Reader

end WatTypes.Toml
