import WatTypes.Rule

/-!
# Types

The rules of value and element types, of limits, and of the types of globals, tables and memories.
-/

set_option autoImplicit false
set_option relaxedAutoImplicit false

namespace WatTypes.Grammar

open Rule Step

/-- Reads a value type. -/
def valType : Rule Cursor ValType :=
  token (ValType.all.map fun ty ↦ Element.display (.keyword ty.keyword)) (·.valType?)

/-- Reads an element type. -/
def elemType : Rule Cursor ElemType :=
  token (ElemType.all.map fun ty ↦ Element.display (.keyword ty.keyword)) (·.elemType?)

/-- Reads limits: an integer right behind the least size is the greatest one. -/
def limits : Rule Cursor Limits := do
  let least ← unsigned
  let greatest ← Element.unsigned.readOptional
  return ⟨least, greatest.map fun (value : Nat) ↦ (value : Int)⟩

/-- Reads the type of a global, in parentheses where it is mutable. -/
def globalType : Rule Cursor GlobalType := do
  if (← state).opensWith (.keyword "mut") then
    parens do
      let _ ← keyword "mut"
      return ⟨← valType, true⟩
  else return ⟨← valType, false⟩

/-- Reads the type of a table. -/
def tableType : Rule Cursor TableType := do
  let bounds ← limits
  return ⟨bounds, ← elemType⟩

/-- Reads the type of a memory. -/
def memoryType : Rule Cursor MemoryType := do
  let bounds ← limits
  let shared ← (Element.keyword "shared").readOptional
  return ⟨bounds, shared.isSome⟩

end WatTypes.Grammar
