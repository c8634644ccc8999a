import WatTypes.Text.Quoted
import WatTypes.Tree

/-!
# Outlines of trees

A module is shown as an indented outline: the kind of each part on a line, and below it what the
part holds, by name. Parts that are missing and places in the source are left out, an empty list is
a pair of brackets, and names stand in quotation marks.
-/

set_option autoImplicit false
set_option relaxedAutoImplicit false

namespace WatTypes.Outline

/-- Lines moved to the right by one step. -/
def indented (lines : List String) : List String := lines.map ("  " ++ ·)

/-- A part of a given kind: its kind, and below it what it holds. -/
def part (kind : String) (entries : List (List String)) : List String :=
  kind :: indented entries.flatten

/-- An entry that is a single word. -/
def leaf (name value : String) : List String := [name ++ ": " ++ value]

/-- An entry that is a part. -/
def inner (name : String) (lines : List String) : List String := (name ++ ":") :: indented lines

/-- An entry that may be missing. -/
def optional {α : Type} (entry : α → List String) (value : Option α) : List String :=
  (value.map entry).getD []

/-- An entry that is a list. -/
def many {α : Type} (name : String) (lines : α → List String) (values : List α) : List String :=
  if values.isEmpty then leaf name "[]" else inner name (values.flatMap lines)

/-- A truth value. -/
def truth (holds : Bool) : String := if holds then "True" else "False"

/-- An identifier. -/
def ofId (id : Id) : List String := part "Id" [leaf "name" (Text.quoted id.name)]

/-- A display name. -/
def ofDisplayName (name : DisplayName) : List String :=
  part "NameAnnotation" [leaf "name" (Text.quoted name.name)]

/-- A reference. -/
def ofIndex (index : Index) : List String :=
  let value := match index.reference with
    | .number value => toString value
    | .symbol name => Text.quoted name
  part "Index" [leaf "value" value]

/-- Limits. -/
def ofLimits (limits : Limits) : List String :=
  part "Limits" [leaf "min" (toString limits.min),
    optional (fun most : Int ↦ leaf "max" (toString most)) limits.max]

/-- The type of a global. -/
def ofGlobalType (ty : GlobalType) : List String :=
  part "GlobalType" [leaf "ty" ty.ty.keyword, leaf "mutable" (truth ty.isMutable)]

/-- The type of a table. -/
def ofTableType (ty : TableType) : List String :=
  part "TableType" [inner "limits" (ofLimits ty.limits), leaf "elem" ty.elem.keyword]

/-- The type of a memory. -/
def ofMemoryType (ty : MemoryType) : List String :=
  part "MemoryType" [inner "limits" (ofLimits ty.limits), leaf "shared" (truth ty.isShared)]

/-- A parameter. -/
def ofParam (param : Param) : List String :=
  part "Param" [leaf "ty" param.ty.keyword, optional (fun id ↦ inner "id" (ofId id)) param.id,
    optional (fun name ↦ inner "name" (ofDisplayName name)) param.name]

/-- A signature. -/
def ofFunctionType (ty : FunctionType) : List String :=
  part "FunctionType" [many "params" ofParam ty.params,
    many "results" (fun result : ValType ↦ [result.keyword]) ty.results]

/-- A use of a function type. -/
def ofTypeUse (use : TypeUse) : List String :=
  part "TypeUse" [optional (fun index ↦ inner "index" (ofIndex index)) use.index,
    inner "func" (ofFunctionType use.func)]

/-- The kind of a declaration. -/
def kindOf : Declaration → String
  | .type _ => "TypeDecl"
  | .global _ => "GlobalDecl"
  | .table _ => "TableDecl"
  | .memory _ => "MemoryDecl"
  | .func _ => "FuncDecl"

/-- What a field declares. -/
def ofDeclaration : Declaration → List String
  | .type signature => inner "func" (ofFunctionType signature)
  | .global ty => inner "ty" (ofGlobalType ty)
  | .table ty => inner "ty" (ofTableType ty)
  | .memory ty => inner "ty" (ofMemoryType ty)
  | .func use => inner "type_use" (ofTypeUse use)

/-- A field. -/
def ofField (field : Field) : List String :=
  part (kindOf field.declaration) [optional (fun id ↦ inner "id" (ofId id)) field.id,
    ofDeclaration field.declaration]

/-- The outline of a module, line by line. -/
def ofModule (m : TypeModule) : List String :=
  part "TypeModule" [optional (fun id ↦ inner "id" (ofId id)) m.id,
    many "fields" ofField m.fields]

end WatTypes.Outline
