import WatTypes.Span

/-!
# The tree of a type module

What the type grammar of the text format denotes: value types, limits, the types of globals, tables
and memories, signatures, references to types, and the module of declarations made of them.
Identifiers and symbolic references are held without their dollar sign and are not resolved. Every
name, reference and declaration remembers where it was written.
-/

set_option autoImplicit false
set_option relaxedAutoImplicit false

namespace WatTypes

/-! ### Primitive types -/

/-- A value type. -/
inductive ValType where
  | i32
  | i64
  | f32
  | f64
  | anyref
  | funcref
  | v128
  | nullref
deriving DecidableEq, Repr

namespace ValType

/-- The value types in the order in which messages list them. -/
def all : List ValType := [.i32, .i64, .f32, .f64, .anyref, .funcref, .v128, .nullref]

/-- The keyword of a value type. -/
def keyword : ValType → String
  | .i32 => "i32"
  | .i64 => "i64"
  | .f32 => "f32"
  | .f64 => "f64"
  | .anyref => "anyref"
  | .funcref => "funcref"
  | .v128 => "v128"
  | .nullref => "nullref"

end ValType

/-- The type of the elements of a table. -/
inductive ElemType where
  | funcref
  | anyref
  | nullref
deriving DecidableEq, Repr

namespace ElemType

/-- The element types in the order in which messages list them. -/
def all : List ElemType := [.funcref, .anyref, .nullref]

/-- The keyword of an element type. -/
def keyword : ElemType → String
  | .funcref => "funcref"
  | .anyref => "anyref"
  | .nullref => "nullref"

end ElemType

/-- The older spelling of the keyword of functions as a value or element type. -/
def anyfunc : String := "anyfunc"

/-- The value type that a keyword names; `anyfunc` is an older spelling of `funcref`. -/
def ValType.ofKeyword? (word : String) : Option ValType :=
  if word = anyfunc then some .funcref else all.find? (·.keyword == word)

/-- The element type that a keyword names; `anyfunc` is an older spelling of `funcref`. -/
def ElemType.ofKeyword? (word : String) : Option ElemType :=
  if word = anyfunc then some .funcref else all.find? (·.keyword == word)

theorem ValType.ofKeyword?_keyword (ty : ValType) : ofKeyword? ty.keyword = some ty := by
  cases ty <;> decide

theorem ElemType.ofKeyword?_keyword (ty : ElemType) : ofKeyword? ty.keyword = some ty := by
  cases ty <;> decide

/-! ### Names and references -/

/-- An identifier, without its dollar sign. -/
structure Id where
  /-- The name. -/
  name : String
  /-- Where it is written. -/
  span : Span
deriving DecidableEq, Repr

/-- A display name, written `(@name "...")`. -/
structure DisplayName where
  /-- The name, any text. -/
  name : String
  /-- Where its opening parenthesis stands. -/
  span : Span
deriving DecidableEq, Repr

/-- What a reference refers by. -/
inductive Reference where
  /-- A number. -/
  | number (value : Int)
  /-- An identifier, without its dollar sign. -/
  | symbol (name : String)
deriving DecidableEq, Repr

/-- A reference to a declaration. -/
structure Index where
  /-- What it refers by. -/
  reference : Reference
  /-- Where it is written. -/
  span : Span
deriving DecidableEq, Repr

/-- Whether an index refers by an identifier. -/
def Index.isSymbolic (index : Index) : Bool :=
  match index.reference with
  | .number _ => false
  | .symbol _ => true

/-! ### Types of globals, tables and memories -/

/-- The size bounds of a table or a memory. -/
structure Limits where
  /-- The least size. -/
  min : Int
  /-- The greatest size, where there is one. -/
  max : Option Int
deriving DecidableEq, Repr

/-- The type of a global. -/
structure GlobalType where
  /-- The type of its value. -/
  ty : ValType
  /-- Whether its value can be changed. -/
  isMutable : Bool
deriving DecidableEq, Repr

/-- The type of a table. -/
structure TableType where
  /-- Its size bounds. -/
  limits : Limits
  /-- The type of its elements. -/
  elem : ElemType
deriving DecidableEq, Repr

/-- The type of a memory. -/
structure MemoryType where
  /-- Its size bounds. -/
  limits : Limits
  /-- Whether threads share it. -/
  isShared : Bool
deriving DecidableEq, Repr

/-! ### Signatures -/

/-- A parameter, which may bear an identifier, a display name, or both. -/
structure Param where
  /-- Its type. -/
  ty : ValType
  /-- Its identifier. -/
  id : Option Id
  /-- Its display name. -/
  name : Option DisplayName
deriving DecidableEq, Repr

namespace Param

/-- The parameter that has nothing but a type. -/
def anonymous (ty : ValType) : Param := ⟨ty, none, none⟩

/-- Whether a parameter bears an identifier or a display name. -/
def isNamed (param : Param) : Bool := param.id.isSome || param.name.isSome

end Param

/-- The parameters and the results of a function, in order. -/
structure FunctionType where
  /-- The parameters. -/
  params : List Param
  /-- The types of the results. -/
  results : List ValType
deriving DecidableEq, Repr

namespace FunctionType

/-- Whether there are neither parameters nor results. -/
def isEmpty (ty : FunctionType) : Bool := ty.params.isEmpty && ty.results.isEmpty

/-- The types of the parameters. -/
def paramTypes (ty : FunctionType) : List ValType := ty.params.map Param.ty

end FunctionType

/-- The type of a function by reference, in line, or both; the two are not compared. -/
structure TypeUse where
  /-- The type referred to. -/
  index : Option Index
  /-- The type in line. -/
  func : FunctionType
deriving DecidableEq, Repr

/-! ### Modules -/

/-- What a field of a module declares. -/
inductive Declaration where
  /-- A type. -/
  | type (func : FunctionType)
  /-- A global. -/
  | global (ty : GlobalType)
  /-- A table. -/
  | table (ty : TableType)
  /-- A memory. -/
  | memory (ty : MemoryType)
  /-- A function, by its header. -/
  | func (use : TypeUse)
deriving DecidableEq, Repr

/-- The keyword that a declaration starts with. -/
def Declaration.keyword : Declaration → String
  | .type _ => "type"
  | .global _ => "global"
  | .table _ => "table"
  | .memory _ => "memory"
  | .func _ => "func"

/-- A field of a module: a declaration that may bear an identifier. -/
structure Field where
  /-- The identifier it declares. -/
  id : Option Id
  /-- What it declares. -/
  declaration : Declaration
  /-- Where its keyword stands. -/
  span : Span
deriving DecidableEq, Repr

/-- A module of declarations. -/
structure TypeModule where
  /-- Its identifier. -/
  id : Option Id
  /-- Its fields, in order. -/
  fields : List Field
  /-- From the first token of the source to its end. -/
  span : Span
deriving DecidableEq, Repr

/-- The fields of a module that declare types. -/
def TypeModule.types (m : TypeModule) : List Field :=
  m.fields.filter fun field ↦
    match field.declaration with
    | .type _ => true
    | _ => false

end WatTypes
