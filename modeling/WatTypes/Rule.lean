import WatTypes.Cursor
import WatTypes.Step

/-!
# Grammar rules

A grammar rule is a step that may fail with a grammar error, and most rules step from cursor to
cursor. `Rule.token` is the rule of a single token and, with `Rule.skip`, the only one that moves a
cursor forward; the others are put together from it, in `do` blocks, in parentheses
(`Rule.parens`), and by repetition up to the end of a group (`Rule.untilGroupEnd`).
-/

set_option autoImplicit false
set_option relaxedAutoImplicit false

namespace WatTypes

/-- A step that may fail with a grammar error. -/
abbrev Rule (σ α : Type) : Type := Step GrammarError σ α

namespace Rule

open Step

variable {α : Type}

/-! ### Rules of a cursor -/

/-- Reads a single token of which `meaning` makes something. -/
def token (expected : List String) (meaning : Token → Option α) : Rule Cursor α := fun here ↦
  match meaning here.current with
  | some answer => (.ok answer, here.advance)
  | none => (.error (here.unexpected expected), here)

theorem token_of_some {expected : List String} {meaning : Token → Option α} {here : Cursor}
    {answer : α} (h : meaning here.current = some answer) :
    token expected meaning here = (.ok answer, here.advance) := by
  simp only [token, h]

theorem token_of_none {expected : List String} {meaning : Token → Option α} {here : Cursor}
    (h : meaning here.current = none) :
    token expected meaning here = (.error (here.unexpected expected), here) := by
  simp only [token, h]

/-- Passes the next token, whatever it is. -/
def skip : Rule Cursor Token := fun here ↦ (.ok here.current, here.advance)

/-- Fails because the next token is none of the given alternatives. -/
def expecting (expected : List String) : Rule Cursor α := fun here ↦
  (.error (here.unexpected expected), here)

/-- Reads an opening parenthesis. -/
def opening : Rule Cursor Unit :=
  token [Lexeme.opening.describe] fun found ↦ if found.lexeme = .opening then some () else none

/-- Reads a closing parenthesis. -/
def closing : Rule Cursor Unit :=
  token [Lexeme.closing.describe] fun found ↦ if found.lexeme = .closing then some () else none

/-- Runs a rule inside of parentheses, which it has to read to their end. -/
def parens (body : Rule Cursor α) : Rule Cursor α := do
  opening
  let answer ← body
  closing
  return answer

/-- Runs a rule until the group around the cursor holds nothing more. -/
def untilGroupEnd (rule : Rule Cursor α) : Rule Cursor (List α) :=
  whileMore (·.ahead.length) (fun here ↦ !here.isGroupEnd) rule

/-! ### Elements -/

/-- Reads a reserved word. -/
def keyword (word : String) : Rule Cursor Span :=
  token [Element.display (.keyword word)] (·.keyword? word)

/-- Reads an unsigned integer of 32 bits. -/
def unsigned : Rule Cursor Nat := token [Element.display .unsigned] (·.unsigned?)

/-- Reads an identifier. -/
def identifier : Rule Cursor Id := token [Element.display .id] (·.id?)

/-- Reads a string. -/
def string : Rule Cursor String := token [Element.display .string] (·.string?)

/-- Reads a reference. -/
def index : Rule Cursor Index :=
  token [Element.display .unsigned, Element.display .id] (·.index?)

/-- Reads a display name in its parentheses. -/
def displayName : Rule Cursor DisplayName := do
  let here ← state
  if here.shows 0 .displayName then
    let name ← parens do
      let _ ← skip
      string
    return ⟨name, here.current.span⟩
  else expecting [Element.display .displayName]

end Rule

namespace Element

/-- Reads an element. -/
def read : (element : Element) → Rule Cursor element.Value
  | .keyword word => Rule.keyword word
  | .unsigned => Rule.unsigned
  | .id => Rule.identifier
  | .string => Rule.string
  | .displayName => Rule.displayName
  | .index => Rule.index

/-- Reads an element if it shows, and nothing otherwise. -/
def readOptional (element : Element) : Rule Cursor (Option element.Value) := do
  if (← Step.state).shows 0 element then
    return some (← element.read)
  else return none

end Element

end WatTypes
