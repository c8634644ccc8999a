import WatTypes.Lexeme.Spelling
import WatTypes.SignatureGroup

/-!
# Canonical text

Every part of a tree is written as a list of lexemes. Signatures come out in their shortest form,
by their groups (`FunctionType.groups`). A module without an identifier is its fields, one on a
line; a module with an identifier is wrapped in parentheses, with its fields indented. The text of
a module ends with a line feed.
-/

set_option autoImplicit false
set_option relaxedAutoImplicit false

namespace WatTypes

open Lexeme

/-! ### Types -/

namespace ValType

/-- A value type as lexemes. -/
def lexemes (ty : ValType) : List Lexeme := [.keyword ty.keyword]

end ValType

namespace ElemType

/-- An element type as lexemes. -/
def lexemes (ty : ElemType) : List Lexeme := [.keyword ty.keyword]

end ElemType

namespace Limits

/-- Limits as lexemes. -/
def lexemes (limits : Limits) : List Lexeme :=
  .integer (toString limits.min) :: (limits.max.map fun most ↦ .integer (toString most)).toList

end Limits

namespace GlobalType

/-- The type of a global as lexemes. -/
def lexemes (ty : GlobalType) : List Lexeme :=
  if ty.isMutable then parenthesised (.keyword "mut" :: ty.ty.lexemes) else ty.ty.lexemes

end GlobalType

namespace TableType

/-- The type of a table as lexemes. -/
def lexemes (ty : TableType) : List Lexeme := ty.limits.lexemes ++ ty.elem.lexemes

end TableType

namespace MemoryType

/-- The type of a memory as lexemes. -/
def lexemes (ty : MemoryType) : List Lexeme :=
  ty.limits.lexemes ++ if ty.isShared then [.keyword "shared"] else []

end MemoryType

/-! ### Names and references -/

namespace Id

/-- An identifier as lexemes. -/
def lexemes (id : Id) : List Lexeme := [.id id.name]

/-- An identifier that may be missing as lexemes. -/
def optionalLexemes (id : Option Id) : List Lexeme := (id.map lexemes).getD []

end Id

namespace DisplayName

/-- A display name as lexemes. -/
def lexemes (name : DisplayName) : List Lexeme :=
  parenthesised [.annotationHead "name", .string name.name]

/-- A display name that may be missing as lexemes. -/
def optionalLexemes (name : Option DisplayName) : List Lexeme := (name.map lexemes).getD []

end DisplayName

namespace Index

/-- A reference as lexemes. -/
def lexemes (index : Index) : List Lexeme :=
  match index.reference with
  | .number value => [.integer (toString value)]
  | .symbol name => [.id name]

end Index

/-! ### Signatures -/

namespace SignatureGroup

/-- A group as lexemes. -/
def lexemes : SignatureGroup → List Lexeme
  | .anonymous types => parenthesised (.keyword "param" :: types.flatMap ValType.lexemes)
  | .named param =>
    parenthesised (.keyword "param" :: Id.optionalLexemes param.id ++
      DisplayName.optionalLexemes param.name ++ param.ty.lexemes)
  | .results types => parenthesised (.keyword "result" :: types.flatMap ValType.lexemes)

end SignatureGroup

namespace FunctionType

/-- A signature as lexemes. -/
def lexemes (ty : FunctionType) : List Lexeme := ty.groups.flatMap SignatureGroup.lexemes

end FunctionType

namespace TypeUse

/-- A use of a function type as lexemes. -/
def lexemes (use : TypeUse) : List Lexeme :=
  (use.index.map fun index ↦ parenthesised (.keyword "type" :: index.lexemes)).getD [] ++
    use.func.lexemes

end TypeUse

/-! ### Modules -/

namespace Declaration

/-- What a field declares as lexemes. -/
def lexemes : Declaration → List Lexeme
  | .type signature => parenthesised (.keyword "func" :: signature.lexemes)
  | .global ty => ty.lexemes
  | .table ty => ty.lexemes
  | .memory ty => ty.lexemes
  | .func use => use.lexemes

end Declaration

namespace Field

/-- A field as lexemes. -/
def lexemes (field : Field) : List Lexeme :=
  parenthesised (.keyword field.declaration.keyword :: Id.optionalLexemes field.id ++
    field.declaration.lexemes)

end Field

namespace TypeModule

/-- The indent of the fields of a module in parentheses, unless another one is asked for. -/
def standardIndent : String := "  "

/-- The canonical text of a module. -/
def canonicalText (indent : String) (m : TypeModule) : String :=
  let fields := m.fields.map fun field ↦ spaced field.lexemes
  match m.id with
  | none => String.intercalate "\n" fields ++ "\n"
  | some id =>
    let header := spaced (.opening :: .keyword "module" :: id.lexemes)
    String.intercalate "\n" (header :: fields.map (indent ++ ·)) ++ ")\n"

end TypeModule

end WatTypes
