import WatTypes.Toml.Reader

/-!
# TOML documents

A document is a sequence of statements, each on lines of its own: a header opens the section of a
table, and a dotted key with a value adds to the table of the section. Values are nested only so
deep. A document is read with its line breaks as line feeds (`Toml.read`).
-/

set_option autoImplicit false
set_option relaxedAutoImplicit false

namespace WatTypes.Toml

namespace Reader

open Step

/-! ### Values -/

/-- Passes blanks, line feeds and comments. -/
def gaps : Reader Unit :=
  foldWhile List.length (fun text ↦ text.head?.any fun c ↦ isGap c || c == '#')
    (fun _ ↦ do
      passAll isGap
      comment)
    ()

/-- Reads a key, an equals sign and a value. -/
def pair (value : Reader Value) : Reader (Key × Value) := do
  let key ← key
  expect ['=']
  blanks
  return (key, ← value)

/-- Reads the items of an array up to its closing bracket. A comma may follow the last one. -/
def array (value : Reader Value) : Reader Value := do
  expect ['[']
  gaps
  let items ← whileMore List.length (fun text ↦ text.head? != some ']') do
    let item ← value
    gaps
    if ← accept [','] then gaps
    else if (← state).head? ≠ some ']' then malformed
    return item
  expect [']']
  return .array false items

/-- Reads the keys and values of a table on one line up to its closing brace. No comma follows the
last one. -/
def inlineTable (value : Reader Value) : Reader Value := do
  expect ['\x7b']
  blanks
  let entries ← foldWhile List.length (fun text ↦ text.head? != some '\x7d')
    (fun entries ↦ do
      let (key, value) ← pair value
      let entries ← ofExcept (Entries.insertDotted 0 key value entries)
      blanks
      if ← accept [','] then
        blanks
        if (← state).head? = some '\x7d' then malformed
      else if (← state).head? ≠ some '\x7d' then malformed
      return entries)
    ([] : Entries)
  expect ['\x7d']
  return .table .closed entries

/-- Reads a number, a date or a time. -/
def scalar : Reader Value := fun text ↦ (scalar? text).getD (.error .malformed, text)

/-- Reads a value, with readers for the arrays and the tables among values. -/
def valueBy (array table : Reader Value) : Reader Value := do
  let text ← state
  if text.head? = some '"' then return .string (← string '"')
  else if text.head? = some '\'' then return .string (← string '\'')
  else if text.head? = some '[' then array
  else if text.head? = some '\x7b' then table
  else if ← accept "true".toList then return .boolean true
  else if ← accept "false".toList then return .boolean false
  else scalar

/-- Reads a value out of an allowance for nesting: an array takes two of it, and a table on one
line three. -/
def value : Nat → Reader Value
  | 0 | 1 => valueBy (fail .nestedTooDeep) (fail .nestedTooDeep)
  | 2 => valueBy (array (value 0)) (fail .nestedTooDeep)
  | allowance + 3 => valueBy (array (value (allowance + 1))) (inlineTable (value allowance))

/-- The allowance for nesting that the value of a statement has. -/
def nestingAllowance : Nat := 984

/-! ### Statements -/

/-- What has been read of a document: its values, and the section that it is in. -/
structure Draft where
  /-- The values. -/
  entries : Entries
  /-- The keys of the section's header. -/
  header : List String
  /-- The number of the section. -/
  owner : Nat

namespace Draft

/-- Nothing has been read. -/
def start : Draft := ⟨[], [], 0⟩

/-- Adds a value to the table of the section. -/
def addPair (draft : Draft) (key : Key) (value : Value) : Except Fault Draft := do
  return { draft with
    entries := ← Entries.withinHeader (Entries.insertDotted draft.owner key value) draft.header
      draft.entries }

/-- Opens the section of a table. -/
def openTable (draft : Draft) (key : Key) : Except Fault Draft := do
  let owner := draft.owner + 1
  return ⟨← Entries.defineTable owner key draft.entries, key.parts, owner⟩

/-- Opens the section of a new table in an array. -/
def openItem (draft : Draft) (key : Key) : Except Fault Draft := do
  let owner := draft.owner + 1
  return ⟨← Entries.appendTable owner key draft.entries, key.parts, owner⟩

end Draft

/-- Reads a header in its brackets. -/
def header (draft : Draft) : Reader Draft := do
  expect ['[']
  if ← accept ['['] then
    blanks
    let key ← key
    let draft ← ofExcept (draft.openItem key)
    expect [']', ']']
    return draft
  else
    blanks
    let key ← key
    let draft ← ofExcept (draft.openTable key)
    expect [']']
    return draft

/-- Passes a comment and the end of a line. -/
def lineEnd : Reader Unit := do
  blanks
  comment
  if !(← state).isEmpty then expect ['\n']

/-- Reads a statement, if there is one, up to the end of its line. -/
def statement (draft : Draft) : Reader Draft := do
  blanks
  let text ← state
  match text.head? with
  | none => return draft
  | some c =>
    if startsKey c then
      let (key, value) ← pair (value nestingAllowance)
      let draft ← ofExcept (draft.addPair key value)
      lineEnd
      return draft
    else if c = '[' then
      let draft ← header draft
      lineEnd
      return draft
    else
      lineEnd
      return draft

end Reader

/-- A text with a line feed for each carriage return that stands before one. -/
def withoutReturns : List Char → List Char
  | [] => []
  | '\r' :: '\n' :: rest => '\n' :: withoutReturns rest
  | c :: rest => c :: withoutReturns rest

/-- The values of a document. -/
def read (document : String) : Except Fault Entries :=
  let reader := Step.foldWhile List.length (fun text ↦ !text.isEmpty) Reader.statement
    Reader.Draft.start
  (reader (withoutReturns document.toList)).1.map (·.entries)

end WatTypes.Toml
