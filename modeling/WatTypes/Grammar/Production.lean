import WatTypes.Grammar.Module

/-!
# The productions of the grammar

Every rule of the grammar under its name, with the type of what it reads (`Production.Value`), so
that a statement about all rules can be made at once.
-/

set_option autoImplicit false
set_option relaxedAutoImplicit false

namespace WatTypes

/-- The name of a rule of the grammar. -/
inductive Production where
  /-- A value type. -/
  | valType
  /-- An element type. -/
  | elemType
  /-- Size bounds. -/
  | limits
  /-- The type of a global. -/
  | globalType
  /-- The type of a table. -/
  | tableType
  /-- The type of a memory. -/
  | memoryType
  /-- The groups of a signature, with or without names. -/
  | signature (allowsNames : Bool)
  /-- The keyword of functions and a signature. -/
  | functionType
  /-- The inside of a type declaration. -/
  | typeField
  /-- A use of a function type, with or without names. -/
  | typeUse (allowsNames : Bool)
  /-- The inside of a field. -/
  | field
  /-- A whole source. -/
  | module
deriving DecidableEq, Repr

namespace Production

/-- What a rule reads. -/
abbrev Value : Production → Type
  | .valType => ValType
  | .elemType => ElemType
  | .limits => Limits
  | .globalType => GlobalType
  | .tableType => TableType
  | .memoryType => MemoryType
  | .signature _ => FunctionType
  | .functionType => FunctionType
  | .typeField => Field
  | .typeUse _ => TypeUse
  | .field => Field
  | .module => TypeModule

/-- The rule itself. -/
def rule : (production : Production) → Rule Cursor production.Value
  | .valType => Grammar.valType
  | .elemType => Grammar.elemType
  | .limits => Grammar.limits
  | .globalType => Grammar.globalType
  | .tableType => Grammar.tableType
  | .memoryType => Grammar.memoryType
  | .signature allowsNames => Grammar.signature allowsNames
  | .functionType => Grammar.functionType
  | .typeField => Grammar.typeField
  | .typeUse allowsNames => Grammar.typeUse allowsNames
  | .field => Grammar.field
  | .module => Grammar.module

end Production

end WatTypes
