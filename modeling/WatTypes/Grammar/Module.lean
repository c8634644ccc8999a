import WatTypes.Grammar.Signature
import WatTypes.Lexeme.Scan

/-!
# Modules

A field of a module is a keyword, an optional identifier and a type; a source holds a module in
parentheses, or its fields alone. `TypeModule.read` reads a source text from its characters to its
tree.
-/

set_option autoImplicit false
set_option relaxedAutoImplicit false

namespace WatTypes

namespace Grammar

open Rule Step

/-- Reads the keyword of a field, an optional identifier, and what it declares. -/
def fieldOf (word : String) (declaration : Rule Cursor Declaration) : Rule Cursor Field := do
  let span ← keyword word
  let id ← Element.id.readOptional
  return ⟨id, ← declaration, span⟩

/-- Reads the declaration of a type. -/
def typeField : Rule Cursor Field := fieldOf "type" do return .type (← parens functionType)

/-- Reads the declaration of a global. -/
def globalField : Rule Cursor Field := fieldOf "global" do return .global (← globalType)

/-- Reads the declaration of a table. -/
def tableField : Rule Cursor Field := fieldOf "table" do return .table (← tableType)

/-- Reads the declaration of a memory. -/
def memoryField : Rule Cursor Field := fieldOf "memory" do return .memory (← memoryType)

/-- Reads the header of a function. -/
def funcField : Rule Cursor Field := fieldOf "func" do return .func (← typeUse true)

/-- Reads the inside of a field. -/
def field : Rule Cursor Field := do
  let here ← state
  if here.shows 0 (.keyword "type") then typeField
  else if here.shows 0 (.keyword "global") then globalField
  else if here.shows 0 (.keyword "table") then tableField
  else if here.shows 0 (.keyword "memory") then memoryField
  else if here.shows 0 (.keyword "func") then funcField
  else
    expecting (["type", "global", "table", "memory", "func"].map fun word ↦
      Element.display (.keyword word))

/-- Reads fields, each in its parentheses. -/
def fields : Rule Cursor (List Field) := untilGroupEnd (parens field)

/-- Reads the inside of a module in parentheses. -/
def wrappedModule : Rule Cursor (Option Id × List Field) := do
  let _ ← keyword "module"
  let id ← Element.id.readOptional
  return (id, ← fields)

/-- Reads all tokens of a source as a module. The span of the module is in the file of the first
token, since all tokens of a source are in the one file that the source is read as. -/
def module : Rule Cursor TypeModule := do
  let first ← state
  let (id, fields) ←
    if first.opensWith (.keyword "module") then parens wrappedModule
    else do pure (none, ← Grammar.fields)
  let last ← state
  if last.isAtEnd then
    let start := first.current.span
    return ⟨id, fields, ⟨start.file, start.first, last.current.span.last⟩⟩
  else expecting [Lexeme.endOfInput.describe]

end Grammar

/-- The module that the tokens of a source hold, or the first error of their grammar. -/
def TypeModule.ofTokens (tokens : TokenList) : Except GrammarError TypeModule :=
  (Grammar.module (.start tokens)).1

/-- The module that a source holds, or everything that is wrong with it. -/
def TypeModule.read (file : String) (limit : Option NestingLimit) (source : String) :
    Except Refusal TypeModule :=
  match TokenList.read file limit source with
  | .error refusal => .error refusal
  | .ok tokens =>
    match ofTokens tokens with
    | .ok found => .ok found
    | .error error => .error ⟨[error.diagnostic]⟩

end WatTypes
